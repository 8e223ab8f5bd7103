import Shader.Main
import Shader.Proofs.ControlFlow
import Shader.Proofs.Epochs
import Shader.Proofs.FallThrough
import Shader.Proofs.Guard
import Shader.Proofs.Shape
import Shader.Proofs.Validity
import Shader.Proofs.WordCount
import Shader.Proofs.Isolation
import Shader.Proofs.ShortCircuit
import Shader.Proofs.Erasure
import Shader.Proofs.Versions
import Shader.Proofs.Termination
import Shader.Proofs.BlockList
import Shader.Proofs.Header
import Shader.Proofs.Skipping
import Shader.Proofs.Distinctness
import Shader.Proofs.Footprint
import Shader.Proofs.Overrides
