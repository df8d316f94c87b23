import Embers.Lib.Op
import Embers.Lib.Table
import Embers.Lib.Register
import Embers.Core.Ids
import Embers.Core.Model
import Embers.State.Walk
import Embers.State.Edit
import Embers.State.Focus
import Embers.State.Build
import Embers.State.Close
import Embers.State.Place
import Embers.State.Move
import Embers.State.Records
import Embers.State.Validate
import Embers.State.Links
import Embers.State.FocusFrame
import Embers.State.CloseFrame
import Embers.Persist.Format
import Embers.Persist.Workspace
import Embers.Server.RuntimeStatus
import Embers.Server.StatusOrder
import Embers.Server.Watch
import Embers.Server.WatchFlags
import Embers.Server.Emptied
import Embers.Server.EmptiedRuns
import Embers.Persist.RoundTrip
import Embers.State.Command
import Embers.State.Views
import Embers.State.ViewsKept
import Embers.State.ViewsPlaced
import Embers.State.EditCases
import Embers.State.Anchored
import Embers.State.JoinViews
import Embers.Keeper.Router
import Embers.Keeper.RouterChunks
import Embers.Keeper.PassthroughPoll
import Embers.Keeper.ReplyHold
import Embers.Keeper.ReplyOrder
import Embers.Client.PtySizeRuns
import Embers.Server.KeeperSaves
import Embers.Client.Keys
import Embers.Client.HostKeys
import Embers.Client.KeyReports
import Embers.Client.Overlays
import Embers.Client.OverlayRuns
import Embers.Server.RemoteHosts
import Embers.Server.RemoteHostsRuns
import Embers.Protocol.RecordCodec
import Embers.Protocol.Records
import Embers.Protocol.RecordsSent
import Embers.Server.RemotePump
import Embers.Server.RemotePumpRuns
import Embers.Client.KeyBytes
import Embers.Client.Typing
import Embers.State.Outline
import Embers.Client.State
import Embers.Client.Resync
import Embers.Client.ResyncTables
import Embers.Client.RowLines
import Embers.Cli.Resolve
import Embers.Cli.Windows
import Embers.Cli.Switch
import Embers.Cli.LoneWindow
import Embers.Client.CopyCells
import Embers.Client.WordMotions
import Embers.Client.WordSearch
import Embers.Client.Grid
import Embers.Client.GridCells
import Embers.Client.GridAreas
import Embers.Client.GridRuns
import Embers.Lib.TerminalRow
import Embers.Client.Ansi
import Embers.Client.AnsiWriter
import Embers.Client.AnsiRows
import Embers.Client.AnsiColumns
import Embers.Client.GridTexts
import Embers.Client.Presentation
import Embers.Client.Strips
import Embers.Client.Projected
import Embers.Client.ProjectedTrees
import Embers.Client.TabBarInk
import Embers.Client.TabBarTargets
import Embers.Client.Leaves
import Embers.Client.LeafAreas
import Embers.Client.LeafLeaks
import Embers.State.Siblings
import Embers.Keeper.ReplyRuns
import Embers.Keeper.PassthroughSegments
import Embers.Client.KeyRoundTrip
import Embers.Lib.Scatter
import Embers.Protocol.StyledLines
import Embers.Client.ViewScroll
import Embers.Lib.ControlStrings
import Embers.Keeper.Reports
import Embers.Client.CellSpans
import Embers.Client.Screens
import Embers.Client.FocusTargets
import Embers.Lib.ShellWords
import Embers.Server.ShellLine
import Embers.Client.MouseReports
import Embers.Client.CopyMotions
import Embers.Lib.Laps
import Embers.Client.SearchMatches
import Embers.Client.SearchSteps
import Embers.Lib.Budget
import Embers.Server.BufferList
import Embers.Lib.Worklist
import Embers.Client.Actions
import Embers.Server.LineBuild
import Embers.Server.RowGlyphs
import Embers.Server.AlacrittyRows
import Embers.Server.GhosttyRows
import Embers.Server.ShownRows
import Embers.Lib.Slices
import Embers.Server.Scrollback
import Embers.Client.PromptLine
import Embers.Client.PromptRuns
import Embers.Lib.LittleEndian
import Embers.Lib.Streams
import Embers.Protocol.Framing
import Embers.Lib.CommandWords
import Embers.Cli.Options
import Embers.Client.LastSession
import Embers.Lib.Rendition
import Embers.Server.SgrReport
import Embers.Cli.Capture
import Embers.Lib.Needles
import Embers.Client.HostReplies
import Embers.Client.AttachQueries
import Embers.Client.DrawnViewport
import Embers.Client.Resized
import Embers.Client.Hints
import Embers.State.NamesKept
import Embers.Protocol.Shapes
import Embers.Protocol.Scenes
import Embers.Client.Twins
import Embers.Client.SpawnSizes
import Embers.Server.SessionSnapshots
import Embers.State.Shapes
import Embers.State.Scenes
import Embers.State.PlacedScenes
import Embers.Client.SceneTwins
import Embers.Client.PlacedCopies
import Embers.Server.SnapshotsApplied
import Embers.Client.SpawnDrawn
import Embers.Lib.Readback
import Embers.Client.Formats
import Embers.Cli.WrittenTargets
import Embers.Cli.PrintedTargets
import Embers.Server.HostConnectionRuns
import Embers.Server.Upstream
