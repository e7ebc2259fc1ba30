import Rulebook.Proofs.Compile.Induction

namespace Rulebook

open Outcome

namespace Registry

variable {registry other : Registry}

end Registry

end Rulebook
