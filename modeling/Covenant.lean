import Covenant.Main
import Covenant.Session
import Covenant.Text.Class
import Covenant.Proofs.Sweep.Walk
import Covenant.Proofs.Merge.Dressing
import Covenant.Proofs.World.Disk
import Covenant.Proofs.World.Exact
import Covenant.Proofs.World.Effect
import Covenant.Proofs.Merge.Preamble
import Covenant.Proofs.Text.Line
import Covenant.Proofs.Merge.Preservation
import Covenant.Proofs.Merge.Restart
import Covenant.Proofs.Contracts.Layout
import Covenant.Proofs.Source.Function
import Covenant.Proofs.Sweep.Scan
import Covenant.Proofs.Merge.Completeness
import Covenant.Proofs.World.History
import Covenant.Proofs.Conversation.Exchange
import Covenant.Proofs.Crew.Talk
import Covenant.Proofs.Crew.Steady
import Covenant.Proofs.Conversation.Attachment
import Covenant.Proofs.Workflow.Attachment
import Covenant.Proofs.Program.Attachment
import Covenant.Proofs.Crew.Draft
import Covenant.Proofs.Workflow.Showing
import Covenant.Proofs.Workflow.Saving
import Covenant.Proofs.Crew.Rounds
import Covenant.Proofs.World.Path
import Covenant.Proofs.Workflow.Replacement
import Covenant.Proofs.Conversation.Mark
import Covenant.Proofs.Workflow.Frame
import Covenant.Proofs.Workflow.Upkeep
import Covenant.Proofs.Workflow.Naming
import Covenant.Proofs.Conversation.Start
import Covenant.Proofs.Program.Start
import Covenant.Proofs.World.Built
import Covenant.Proofs.Crew.Steps
import Covenant.Proofs.World.Pair
import Covenant.Proofs.Conversation.Repeat
import Covenant.Proofs.Workflow.Repeat
import Covenant.Proofs.Program.Run
import Covenant.Proofs.Program.Repeat
import Covenant.Proofs.Sweep.Extend
import Covenant.Proofs.World.Differ
import Covenant.Proofs.Merge.Section
import Covenant.Proofs.Merge.Overwrite
import Covenant.Proofs.Merge.Imports
import Covenant.Proofs.Workflow.Revert
import Covenant.Proofs.Settings.CommandLine
import Covenant.Proofs.Settings.Layers
import Covenant.Proofs.Settings.Files
import Covenant.Proofs.Merge.Targets
import Covenant.Proofs.Merge.Declarations
import Covenant.Proofs.Conversation.Outcome
import Covenant.Proofs.Merge.Positions
import Covenant.Proofs.Sweep.Nesting
import Covenant.Proofs.Sweep.OneLine
import Covenant.Proofs.Contracts.Listing
import Covenant.Proofs.Source.Owner
import Covenant.Proofs.Sweep.Headers
import Covenant.Proofs.Conversation.Answer
import Covenant.Proofs.Crew.Harness
import Covenant.Proofs.Source.Declaration
import Covenant.Proofs.Source.Generics
import Covenant.Proofs.Text.Numeral
import Covenant.Proofs.Conversation.Yield
import Covenant.Proofs.Crew.Grade
import Covenant.Proofs.Workflow.Sharing
import Covenant.Proofs.Workflow.Finding
import Covenant.Proofs.Source.Generics
