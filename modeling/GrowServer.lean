import GrowServer.Server.Sessions
import GrowServer.Server.Dispatch
import GrowServer.Manager.ItemManager
import GrowServer.Event.TextEvents
import GrowServer.Manager.Database.PlayersTable
import GrowServer.Manager.ItemFile
import GrowServer.Packet.PacketManager
import GrowServer.Player.Inventory
import GrowServer.Server.TextTransport
import GrowServer.Lib.FailingRun
import GrowServer.Event.HandlerEffects
import GrowServer.Event.Identity
import GrowServer.Event.GrowIDs
import GrowServer.Event.RegistrationDialog
import GrowServer.Server.Uptime
import GrowServer.Utils.TextNumber
import GrowServer.Packet.VariantSequence
import GrowServer.Player.ItemCounts
import GrowServer.Server.PacketLifetime
import GrowServer.Event.RejectedLogin
import GrowServer.Server.ServiceThread
import GrowServer.Utils.Splitters
import GrowServer.Utils.CommandHash
import GrowServer.Utils.TextUpdate
import GrowServer.Utils.LineEndings
import GrowServer.Event.LogReplies
import GrowServer.Manager.Database.PasswordRule
import GrowServer.Protocol.PlatformID
import GrowServer.Event.Completion
import GrowServer.Event.HandlerFrame
import GrowServer.Event.IgnoredAvatar
import GrowServer.Event.PlayerRuns
import GrowServer.Event.Replies
import GrowServer.Server.Blocking
import GrowServer.ENetWrapper.ENetServer
import GrowServer.Event.ClientTexts
import GrowServer.Event.Confirmations
import GrowServer.Lib.Ledger
import GrowServer.Server.InstanceViews
import GrowServer.Lib.Dictionary
import GrowServer.Network.HTTPServer
import GrowServer.Packet.VariantBytes
import GrowServer.Server.Process
import GrowServer.Utils.BinaryFields
import GrowServer.Utils.DialogCalls
import GrowServer.Utils.TextDictionary
import GrowServer.Server.Delivery
import GrowServer.Server.Serving
