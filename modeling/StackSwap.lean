import StackSwap.Json.Patch
import StackSwap.Main
import StackSwap.Proofs.Aliases
import StackSwap.Proofs.Annotations
import StackSwap.Proofs.Classified
import StackSwap.Proofs.CodeUpdates
import StackSwap.Proofs.Coverage
import StackSwap.Proofs.Decoding
import StackSwap.Proofs.Encoding
import StackSwap.Proofs.Escaping
import StackSwap.Proofs.Execution.Reported
import StackSwap.Proofs.Exports
import StackSwap.Proofs.Isolation
import StackSwap.Proofs.LookedUp
import StackSwap.Proofs.Mirrored
import StackSwap.Proofs.Mirroring
import StackSwap.Proofs.Notations
import StackSwap.Proofs.Pairing
import StackSwap.Proofs.Patch
import StackSwap.Proofs.Pointer
import StackSwap.Proofs.Readers
import StackSwap.Proofs.Reasons
import StackSwap.Proofs.Rendering
import StackSwap.Proofs.Settings.Overrides
import StackSwap.Proofs.Siblings
import StackSwap.Proofs.Splitting
import StackSwap.Proofs.Swaps
import StackSwap.Proofs.Termination
import StackSwap.Proofs.Timeout
import StackSwap.Proofs.Touched
import StackSwap.Proofs.Unchanged
import StackSwap.Settings.Choice
import StackSwap.Settings.Codec
