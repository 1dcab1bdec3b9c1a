import InputLeap.Client.MouseCompression
import InputLeap.Io.BufferAccess
import InputLeap.Protocol.Framing
import InputLeap.Protocol.EndOfInput
import InputLeap.Protocol.Oversize
import InputLeap.Protocol.ProtocolUtil
import InputLeap.Protocol.WireCodec
import InputLeap.Protocol.ClipboardTransfer
import InputLeap.Protocol.FileTransfer
import InputLeap.Protocol.ClipboardObject
import InputLeap.Protocol.DragRoundTrip
import InputLeap.Keys.ServerKeys
import InputLeap.Keys.ModifierTracking
import InputLeap.Keys.ModifierSearch
import InputLeap.Keys.RestoredModifiers
import InputLeap.Keys.KeyRepeat
import InputLeap.Server.Anchors
import InputLeap.Server.NeighborSearch
import InputLeap.Server.ClientKeys
import InputLeap.Server.SwitchWait
import InputLeap.Server.ClipboardOwner
import InputLeap.Server.ClipboardSync
import InputLeap.Server.ClipboardLimit
import InputLeap.Server.Reload
import InputLeap.Server.InputFilter
import InputLeap.Server.Notices
import InputLeap.Server.ConfigNames
import InputLeap.Server.Spelling
import InputLeap.Server.LinkLines
import InputLeap.Server.RulesReread
import InputLeap.Server.ScreenNames
import InputLeap.Server.OptionStore
import InputLeap.Server.BlankLines
import InputLeap.Server.CellLinks
import InputLeap.Server.OptionsReread
import InputLeap.Server.KeystrokeText
import InputLeap.Server.Renaming
import InputLeap.Server.Landing
import InputLeap.Server.UnknownClients
import InputLeap.Gui.ServerConfigSync
import InputLeap.Gui.MonitorBack
import InputLeap.Gui.LinkSymmetry
import InputLeap.Gui.ConfigOptions
import InputLeap.Gui.HotkeyNames
import InputLeap.Gui.SyncRetries
import InputLeap.Gui.SyncRequests
import InputLeap.Gui.SyncFraming
import InputLeap.Gui.SyncHealthy
import InputLeap.Gui.AppliedSettings
import InputLeap.Ipc.Fragments
import InputLeap.Ipc.LogLines
import InputLeap.Net.SecureInput
import InputLeap.Net.SecureOutput
import InputLeap.Net.PollResults
import InputLeap.Net.LostReports
import InputLeap.Client.Dimming
import InputLeap.Base.WideRoundTrip
import InputLeap.Base.WideValid
import InputLeap.Base.StringFormat
import InputLeap.Base.EventIDs
import InputLeap.Base.EventTimers
import InputLeap.Client.ClipboardOptions
import InputLeap.Gui.CoreFaces
import InputLeap.Gui.Placement
import InputLeap.Gui.Scaling
import InputLeap.Server.Entering
import InputLeap.Server.ClientInfo
import InputLeap.Server.UndimRequest
import InputLeap.Server.Bounce
import InputLeap.Server.ScreenLists
import InputLeap.Platform.BitmapClipboard
import InputLeap.Platform.HtmlClipboard
import InputLeap.Net.FingerprintDatabase
import InputLeap.Platform.ScreenDimming
import InputLeap.Gui.DisplayReports
import InputLeap.Gui.LayoutRuns
import InputLeap.Connection.StaleMotion
import InputLeap.App.ServerApp
import InputLeap.Server.ClientListener
