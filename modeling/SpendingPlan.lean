import SpendingPlan.Bytes
import SpendingPlan.Bytes.Lemmas
import SpendingPlan.CompactSize
import SpendingPlan.CompactSize.Lemmas
import SpendingPlan.Curve
import SpendingPlan.Descriptor.Basic
import SpendingPlan.Descriptor.Key
import SpendingPlan.Error
import SpendingPlan.Hash.Ripemd160
import SpendingPlan.Hash.Sha256
import SpendingPlan.Hex
import SpendingPlan.Input.Basic
import SpendingPlan.Input.Encode
import SpendingPlan.Item
import SpendingPlan.Key
import SpendingPlan.Origin
import SpendingPlan.Path
import SpendingPlan.Plan.Placeholder
import SpendingPlan.Plan.TaprootData
import SpendingPlan.Plan.Update
import SpendingPlan.Proofs.Bytes.Chunks
import SpendingPlan.Proofs.Bytes.Order
import SpendingPlan.Proofs.CompactSize.Limit
import SpendingPlan.Proofs.CompactSize.Shortest
import SpendingPlan.Proofs.Curve.Evaluation
import SpendingPlan.Proofs.Curve.Group
import SpendingPlan.Proofs.Curve.Order
import SpendingPlan.Proofs.Curve.Prime
import SpendingPlan.Proofs.Curve.Root
import SpendingPlan.Proofs.Descriptor.KeyText
import SpendingPlan.Proofs.Descriptor.SortedKeys
import SpendingPlan.Proofs.Hash.Digest
import SpendingPlan.Proofs.Hash.Refinement
import SpendingPlan.Proofs.Hash.Standard
import SpendingPlan.Proofs.Hash.Truncation
import SpendingPlan.Proofs.Input.Canonical
import SpendingPlan.Proofs.Input.Framing
import SpendingPlan.Proofs.Input.KeyOrder
import SpendingPlan.Proofs.Input.Layout
import SpendingPlan.Proofs.Input.Lossless
import SpendingPlan.Proofs.Input.Values
import SpendingPlan.Proofs.Key.Encoding
import SpendingPlan.Proofs.Key.Reading
import SpendingPlan.Proofs.Origin.Range
import SpendingPlan.Proofs.Outcome
import SpendingPlan.Proofs.Path.Lossless
import SpendingPlan.Proofs.Path.RoundTrip
import SpendingPlan.Proofs.Plan.Additive
import SpendingPlan.Proofs.Plan.Classification
import SpendingPlan.Proofs.Plan.ClosedForm
import SpendingPlan.Proofs.Plan.Exclusive
import SpendingPlan.Proofs.Plan.Folding
import SpendingPlan.Proofs.Plan.Frame
import SpendingPlan.Proofs.Plan.Likeness
import SpendingPlan.Proofs.Plan.Merging
import SpendingPlan.Proofs.Plan.Opening
import SpendingPlan.Proofs.Plan.Populated
import SpendingPlan.Proofs.Plan.Recording
import SpendingPlan.Proofs.Plan.Refusal
import SpendingPlan.Proofs.Plan.Reordering
import SpendingPlan.Proofs.Plan.Repetition
import SpendingPlan.Proofs.Plan.Serialization
import SpendingPlan.Proofs.Plan.Template
import SpendingPlan.Proofs.Plan.WellFormed
import SpendingPlan.Proofs.PrefixFree
import SpendingPlan.Proofs.Related
import SpendingPlan.Proofs.Script.Elements
import SpendingPlan.Proofs.Script.Encoding
import SpendingPlan.Proofs.Script.Number
import SpendingPlan.Proofs.Table.Keys
import SpendingPlan.Proofs.Table.Lookup
import SpendingPlan.Proofs.Table.Sorted
import SpendingPlan.Proofs.Taproot.Binding
import SpendingPlan.Proofs.Taproot.Block
import SpendingPlan.Proofs.Taproot.Inclusion
import SpendingPlan.Proofs.Taproot.Lifting
import SpendingPlan.Proofs.Taproot.Path
import SpendingPlan.Proofs.Taproot.Preimage
import SpendingPlan.Proofs.Taproot.Soundness
import SpendingPlan.Proofs.Taproot.Tweaking
import SpendingPlan.Proofs.Text.Spacing
import SpendingPlan.Proofs.Text.Spelling
import SpendingPlan.Proofs.Text.Trim
import SpendingPlan.Proofs.Tree.Alike
import SpendingPlan.Proofs.Tree.Gap
import SpendingPlan.Proofs.Tree.Position
import SpendingPlan.Script
import SpendingPlan.Session
import SpendingPlan.Table
import SpendingPlan.Taproot.ControlBlock
import SpendingPlan.Taproot.SpendInfo
import SpendingPlan.Taproot.Tree
import SpendingPlan.Text.Character
import SpendingPlan.Text.Numeral
import SpendingPlan.Text.Printable
import SpendingPlan.Text.Quoted
