import DocStore.Main
import DocStore.Proofs.Command.Agreement
import DocStore.Proofs.Document.Isolation
import DocStore.Proofs.Path.Identity
import DocStore.Proofs.Query.Faithful
import DocStore.Proofs.Query.Acceptance
import DocStore.Proofs.Value.Encoding
import DocStore.Proofs.Query.Replacement
import DocStore.Proofs.Value.Sameness
import DocStore.Proofs.Document.FirstFault
import DocStore.Proofs.Query.Spellings
import DocStore.Proofs.Path.Monoid
import DocStore.Proofs.Document.Containment
import DocStore.Proofs.Log.Recovery
import DocStore.Proofs.Document.Resending
import DocStore.Proofs.Path.Upward
import DocStore.Proofs.Query.Counts
import DocStore.Proofs.Value.Display
import DocStore.Proofs.Document.Reads
import DocStore.Proofs.Query.Combining
import DocStore.Proofs.Log.Threshold
