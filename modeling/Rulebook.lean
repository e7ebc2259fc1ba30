import Rulebook.Main
import Rulebook.Validator.Workspace
import Rulebook.Proofs.Validator.Depth
import Rulebook.Proofs.Validator.Address
import Rulebook.Proofs.Validator.Indexing
import Rulebook.Proofs.Validator.Failures
import Rulebook.Proofs.Compile.Reread
import Rulebook.Proofs.Compile.FrontEnds
import Rulebook.Proofs.Rule.Stable
import Rulebook.Proofs.Compile.Presence
import Rulebook.Proofs.Compile.Arrangement
import Rulebook.Proofs.Compile.Descent
import Rulebook.Proofs.Compile.Trace
import Rulebook.Proofs.Validator.Presence
import Rulebook.Proofs.Compile.Frame
import Rulebook.Proofs.Registry.Registration
import Rulebook.Proofs.Validator.Unnamed
import Rulebook.Proofs.Json.Same
import Rulebook.Proofs.Run.Alike
import Rulebook.Proofs.Validator.Undeclared
import Rulebook.Validator.Making
import Rulebook.Proofs.Registry.Names
import Rulebook.Proofs.Registry.History
import Rulebook.Proofs.Session.Effect
import Rulebook.Proofs.Session.Isolation
import Rulebook.Proofs.Session.Failure
import Rulebook.Proofs.Session.Ledger
import Rulebook.Proofs.Session.Snapshots
import Rulebook.Proofs.CommandLine.Contract
import Rulebook.Proofs.Report.Wire
import Rulebook.Proofs.Check.Host
import Rulebook.Proofs.Check.NumberText
import Rulebook.Proofs.Check.Bounds
import Rulebook.Proofs.Check.Enumeration
import Rulebook.Proofs.Registry.Expression
import Rulebook.Proofs.Regex.Display
import Rulebook.Proofs.Registry.Wording
import Rulebook.Proofs.Check.Password
import Rulebook.Proofs.Check.PasswordRules
import Rulebook.Proofs.Check.Scheme
import Rulebook.Proofs.Check.Email
import Rulebook.Proofs.Validator.Elements
import Rulebook.Proofs.Validator.ListRules
import Rulebook.Proofs.Compile.Tokens
import Rulebook.Proofs.Check.TextDemands
import Rulebook.Proofs.Check.Forms
import Rulebook.Proofs.Check.Digits
import Rulebook.Proofs.Rule.Numerals
import Rulebook.Proofs.Message.Marks
