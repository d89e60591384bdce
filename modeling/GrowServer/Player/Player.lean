import GrowServer.ENetWrapper.ENetWrapper
import GrowServer.Player.PlayerDialog
import GrowServer.Player.PlayerItems
import GrowServer.Protocol.TankInfo

/-!
# Player (Player/Player.hpp, Packet/TextFunction.hpp, Packet/VariantFunction.hpp)

A player as the event handlers see one, and the calls they make on it: what they
send and the request to disconnect it, in order. Dialogs are sent to the peer of the
player. Logs, sounds, console messages and `SetHasGrowID` are given the `Player` object,
cast to a peer.
-/

namespace GrowServer
open LittleEndian

structure Player where
  m_detail : TankInfo := {}
  m_items : PlayerItems
  m_rawName : Bytes := []

def Player.create (items : ItemManager) : Except Fault Player := do
  return { m_items := ← PlayerItems.create items }

/-- The argument for the peer in a call that sends. What ENet makes of a `Player` object in
place of a peer is outside the model. -/
inductive PeerArgument where
  | m_pPeer
  | pAvatar
  deriving DecidableEq

inductive Request where
  | text (peer : PeerArgument) (data : Bytes)
  | variantList (peer : PeerArgument) (vList : VariantList)
  | disconnectLater

def Request.sent (peers : PeerArgument → ENetPeer) : Request → Sent
  | text peer data => sendText (some (peers peer)) data
  | variantList peer vList => sendVariantList (some (peers peer)) vList
  | disconnectLater => some []

/-- A player and the calls made while its event is handled. -/
structure Avatar where
  player : Player
  requests : List Request := []

namespace Avatar

def send (this : Avatar) (request : Request) : Avatar :=
  { this with requests := this.requests ++ [request] }

def requestDisconnect (this : Avatar) : Avatar := this.send .disconnectLater

def sendDialog (this : Avatar) (eType : DialogType) (data : TextParse) : Except Fault Avatar := do
  return this.send (.variantList .m_pPeer (← PlayerDialog.send eType data))

end Avatar

namespace CAction

def logEntries (msg : Bytes) : TextParse :=
  (({} : TextParse).add (ascii "action") (ascii "log")).add (ascii "msg") msg

def log (avatar : Avatar) (peer : PeerArgument) (msg : Bytes) : Avatar :=
  avatar.send (.text peer (logEntries msg).getAsString)

def playSFX (avatar : Avatar) (peer : PeerArgument) (sound : Bytes) (delayMS : Int32) : Avatar :=
  let parser := ({} : TextParse).add (ascii "action") (ascii "play_sfx")
  let parser := parser.add (ascii "file") (ascii "audio/" ++ sound ++ ascii ".wav")
  let parser := parser.add (ascii "delayMS") (toDecimal delayMS.toInt)
  avatar.send (.text peer parser.getAsString)

end CAction

namespace VarList

def onConsoleMessage (avatar : Avatar) (peer : PeerArgument) (message : Bytes)
    (delayMS : Int32 := 0) : Avatar :=
  avatar.send (.variantList peer
    ((VariantList.create (ascii "OnConsoleMessage") delayMS).insert (.string message)))

def setHasGrowID (avatar : Avatar) (peer : PeerArgument) (checkboxEnable : Bool)
    (tankIDName tankIDPass : Bytes) (delayMS : Int32 := 0) : Avatar :=
  let vList := VariantList.create (ascii "SetHasGrowID") delayMS
  let vList := vList.insert (.int (if checkboxEnable then 1 else 0))
  let vList := vList.insert (.string tankIDName)
  let vList := vList.insert (.string tankIDPass)
  avatar.send (.variantList peer vList)

end VarList

end GrowServer
