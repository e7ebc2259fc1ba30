import Rulebook.Proofs.Compile.Frame
import Rulebook.Proofs.Registry.Registration
import Rulebook.Proofs.Validator.Report
import Rulebook.Regex.Engine

namespace Rulebook

namespace Registry

end Registry

namespace Roster

-- The same registry, in which the catalogue has lost one of its checks to a user.
def strict : Registry :=
  registry.add "int" (.foreign .none fun args => args.refuse "min" (.notCount "none"))

end Roster

open scoped Regex

end Rulebook
