import Rulebook.Regex.Parser
import Rulebook.Regex.Pattern
import Rulebook.Regex.Search

namespace Rulebook.Regex

-- The engine that programs run with.
scoped instance engine : Engine where
  compile? source := (parse? source).map isMatch

end Rulebook.Regex
