import Clipp.Registers.ExchangeConvergence
import Clipp.Registers.Mesh
import Clipp.Persistence.FileContents
import Clipp.Persistence.GroupSwitch
import Clipp.Persistence.KeyPairing
import Clipp.Persistence.SaveRetry
import Clipp.Clipboard.Duplicates
import Clipp.Clipboard.Persistence
import Clipp.Gateway.ListingPrivacy
import Clipp.Gateway.PutAgreement
import Clipp.Peers.Deadlock
import Clipp.Peers.Reconnection
import Clipp.Settings.OriginSequence
import Clipp.Keys.KeyManager
import Clipp.Discovery.Neighbours
import Clipp.Peers.Admission
import Clipp.Peers.Outbound
import Clipp.Wire.Framing
import Clipp.Cli.MapReport
import Clipp.Peers.BrokenStream
import Clipp.Settings.ClockFloor
import Clipp.Clipboard.LiveOrder
import Clipp.Clipboard.Watchers
import Clipp.Clipboard.Relaunch
import Clipp.Clipboard.ShareAccount
import Clipp.Clipboard.EchoGuard
import Clipp.Foundation.Outcome
import Clipp.Platform.Dib
import Clipp.Platform.DibLayout
import Clipp.Foundation.Rounding
import Clipp.Platform.MaskScaling
import Clipp.Platform.DibSafety
import Clipp.Platform.DibPixels
import Clipp.Registers.Calls
import Clipp.Registers.Remote
import Clipp.Registers.LocalWrites
import Clipp.Registers.Listeners
import Clipp.Registers.Expiry
import Clipp.Clipboard.Actions
import Clipp.Clipboard.ReadModifyWrite
import Clipp.Clipboard.UndoDelete
import Clipp.Clipboard.Rename
import Clipp.Foundation.Cursor
import Clipp.Wire.RegisterCursor
import Clipp.Wire.RegisterCodecs
import Clipp.Wire.PushedRecords
import Clipp.Foundation.CharacterCode
import Clipp.Platform.Utf8
import Clipp.Platform.Utf8Text
import Clipp.Foundation.OutputBuffer
import Clipp.Platform.WideConversion
import Clipp.Cli.Preview
import Clipp.Cli.GlobMatching
import Clipp.Clipboard.LineEndings
import Clipp.Clipboard.ReplayWindows
import Clipp.Clipboard.SavedItem
import Clipp.Clipboard.Reshare
import Clipp.Foundation.Keyboard
import Clipp.Typing.Schedule
import Clipp.Typing.Typer
import Clipp.Typing.Layout
import Clipp.Foundation.Occurrences
import Clipp.Popup.TextMatch
import Clipp.Popup.Model
import Clipp.Clipboard.Display
import Clipp.Settings.NetworkKey
import Clipp.Foundation.LooseText
import Clipp.Keys.KeyDerivation
import Clipp.Keys.KeySet
import Clipp.Foundation.Lines
import Clipp.Settings.SettingsFile
import Clipp.Peers.LocalPeerName
import Clipp.Logging.TerminalLogBuffer
import Clipp.Foundation.Deadline
import Clipp.Wire.SocketTransfer
import Clipp.Foundation.SortedVector
import Clipp.Peers.PeerDisplay
import Clipp.Peers.DisplayedPeers
import Clipp.Foundation.KeyExchange
import Clipp.Wire.Handshake
import Clipp.Wire.HandshakeAgreement
import Clipp.Wire.HandshakeCompletes
import Clipp.Cli.GatewayAnswers
import Clipp.Cli.PutAnswered
import Clipp.Cli.SweepsAnswered
