import ScriptSurvey.Files.Ignore.Line
import ScriptSurvey.Main
import ScriptSurvey.Service.Respond
import ScriptSurvey.Proofs.Walk.Visit
import ScriptSurvey.Proofs.Walk.Descent
import ScriptSurvey.Proofs.History
import ScriptSurvey.Proofs.Walk.Sites
import ScriptSurvey.Proofs.Walk.Findings
import ScriptSurvey.Proofs.Analysis
import ScriptSurvey.Proofs.Walk.Counters
import ScriptSurvey.Proofs.Walk.References
import ScriptSurvey.Proofs.Walk.StateModel
import ScriptSurvey.Proofs.Walk.Setters
import ScriptSurvey.Proofs.Walk.Comments
import ScriptSurvey.Proofs.Syntax.Acceptance
import ScriptSurvey.Proofs.Project.Pool
import ScriptSurvey.Proofs.Project.Merge
import ScriptSurvey.Proofs.Project.Summary
import ScriptSurvey.Proofs.Project.Order
import ScriptSurvey.Proofs.Files.Sources
import ScriptSurvey.Proofs.Files.IgnoreLines
import ScriptSurvey.Proofs.Service.Transparency
import ScriptSurvey.Proofs.Files.Patterns
import ScriptSurvey.Proofs.Files.NestedLines
import ScriptSurvey.Proofs.Files.IgnoreFiles
import ScriptSurvey.Proofs.Files.Malformed
import ScriptSurvey.Proofs.Files.Reach
import ScriptSurvey.Proofs.Walk.NameLists
import ScriptSurvey.Proofs.Files.Listing
import ScriptSurvey.Proofs.Files.Removal
import ScriptSurvey.Proofs.Service.Corruption
import ScriptSurvey.Proofs.Archive.Reading
import ScriptSurvey.Proofs.Service.Archives
import ScriptSurvey.Proofs.Project.Conservation
import ScriptSurvey.Proofs.Project.Additive
import ScriptSurvey.Proofs.Syntax.FirstError
import ScriptSurvey.Proofs.Walk.Exports
import ScriptSurvey.Proofs.Text.Repair
import ScriptSurvey.Proofs.Walk.Literals
import ScriptSurvey.Proofs.Walk.Scopes
import ScriptSurvey.Proofs.Files.Spelling
