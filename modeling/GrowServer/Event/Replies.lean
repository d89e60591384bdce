import GrowServer.Event.Identity
import GrowServer.Event.LogReplies
import GrowServer.Event.RegistrationDialog
import Mathlib.Algebra.Order.BigOperators.Group.List

/-!
# The replies to a text (Event/TextEvents, Event/Dialogs/AccountDialog.hpp)

All that the worker sends in answer to one text, in seven forms. From the forms follows what
a text can make the server send: a bounded number of packets and bytes, each packet stored
whole.
-/

namespace GrowServer
open LittleEndian Outcome Memory RunLogic PlayerDialog

def registeredMessage (name : Bytes) : Bytes :=
  ascii "`oA `wGrowID`` with the logon of `w" ++ name ++ ascii
    "`` created. Write it and your password down as the will be required to logon!``"

def welcomeMessage : Bytes :=
  ascii "`5Welcome to `w" ++ configurationName ++
    ascii "`5, press `wBack`` and then press `wConnect``, enjoy!"

def invalidNameMessage : Bytes :=
  ascii "`4Oops! `oYour name is including invalid characters, please try again.``"

/-- What an account that is created is answered with. -/
def registeredReplies (name password : Bytes) : List Request :=
  (VarList.onConsoleMessage (VarList.onConsoleMessage (VarList.setHasGrowID
    (CAction.playSFX newcomer .pAvatar (ascii "success") 0) .pAvatar true name password)
    .pAvatar (registeredMessage name)) .pAvatar welcomeMessage).requests

/-- The replies to a text that is handled to the end. -/
inductive Replies (globals : Globals) (text : Bytes) (before after : Avatar) :
    List Request → Prop where
  | silent : Replies globals text before after []
  | logged {message : Bytes} (h : Unhandled text message) :
    Replies globals text before after [.text .pAvatar (CAction.logEntries message).getAsString]
  | disconnected : Replies globals text before after [.disconnectLater]
  | turnedAway : Replies globals text before after
      [.text .pAvatar (CAction.logEntries invalidNameMessage).getAsString, .disconnectLater]
  | asked {vList : VariantList} (h : PlayerDialog.send .registration {} = .ok vList) :
    Replies globals text before after [.variantList .m_pPeer vList]
  | refused {message : Bytes} (hlength : message.length ≤ 121) :
    Replies globals text before after
      [.variantList .m_pPeer (sendData 0 ⟨registrationText ((submissionOf text).values message)⟩)]
  | registered (hregisters : Registers globals before.player (TextParse.textLines text))
      (happly : applyGrowID globals (submissionOf text).name (submissionOf text).password before =
        .ok after) :
    Replies globals text before after
      (registeredReplies (submissionOf text).name (submissionOf text).password)

section Forms
variable {globals : Globals} {text : Bytes} {avatar after : Avatar}

def RepliesTo (globals : Globals) (text : Bytes) (avatar after : Avatar) : Prop :=
  ∃ replies, Replies globals text avatar after replies ∧
    after.requests = avatar.requests ++ replies

theorem repliesTo_silent (h : after.requests = avatar.requests) :
    RepliesTo globals text avatar after :=
  ⟨[], .silent, h.trans (List.append_nil _).symm⟩

theorem onRequestedName_replies
    (h : onRequestedName globals (TextParse.parse text) avatar = .ok after) :
    RepliesTo globals text avatar after := by
  unfold onRequestedName at h
  split at h
  · rw [← Except.ok.inj h]
    exact repliesTo_silent rfl
  obtain ⟨⟨serialized, m_detail⟩, -, h⟩ := bind_eq_ok.mp h
  cases serialized with
  | false =>
    rw [← Except.ok.inj h]
    exact ⟨_, .disconnected, rfl⟩
  | true =>
    simp only [not_true, if_false, acceptName] at h
    split at h
    · rw [← Except.ok.inj h]
      exact ⟨_, .turnedAway, List.append_assoc _ [_] [_]⟩
    · obtain ⟨vList, hvList, rfl⟩ := sendDialog_ok h
      exact ⟨_, .asked hvList, rfl⟩

theorem length_refusal_le (pTable : PlayerTable) (name password verifyPassword : Bytes) :
    (pTable.registerPlayer name password verifyPassword).m_data.length ≤ 121 := by
  have hfst := Utils.toLowerCase_fst name
  have hsnd := Utils.toLowerCase_snd name
  unfold PlayerTable.registerPlayer
  split
  · decide +kernel
  split
  · decide +kernel
  split
  rename_i ok lowerCase hlower
  rw [hlower] at hfst hsnd
  split
  · decide +kernel
  rename_i hok
  split
  · decide +kernel
  rename_i hlen
  split
  · have hname : lowerCase = name.map StdNumber.toLower := hsnd (hfst ▸ not_not.mp hok)
    have hfixed : (ascii "`4Oops!``  The name `w").length + (ascii
        "`` is so cool someone else has already taken it.  Please choose a different name.").length =
          103 := by
      decide +kernel
    rw [hname, List.length_map] at hlen
    simp only [List.length_append]
    omega
  split
  · decide +kernel
  · decide +kernel

theorem applyGrowID_replies {name password : Bytes}
    (h : applyGrowID globals name password avatar = .ok after)
    (hname : TankInfo.fits 24 (name.map StdNumber.toLower)) (hpassword : TankInfo.fits 24 password) :
    after.requests = avatar.requests ++ registeredReplies name password := by
  obtain ⟨first, -, h⟩ := bind_eq_ok.mp h
  obtain ⟨second, -, h⟩ := bind_eq_ok.mp h
  obtain rfl := Except.ok.inj h
  simp only [TankInfo.setTankIDName, TankInfo.setTankIDPass, TankInfo.setBounded, if_pos hname,
    if_pos hpassword]
  simp only [registeredReplies, VarList.onConsoleMessage, VarList.setHasGrowID, CAction.playSFX,
    Avatar.send, newcomer, registeredMessage, welcomeMessage, List.append_assoc, List.nil_append,
    List.cons_append]

theorem onAction_replies (hevent : eventNameOf text = ascii "action")
    (h : onAction globals (TextParse.parse text) avatar = .ok after) :
    RepliesTo globals text avatar after := by
  have hlines := TextParse.parse_m_data text
  have hlogged {message : Bytes} (hunhandled : Unhandled text message)
      (hafter : after = avatar ∨ after = CAction.log avatar .pAvatar message) :
      RepliesTo globals text avatar after := by
    rcases hafter with rfl | rfl
    · exact repliesTo_silent rfl
    · exact ⟨_, .logged hunhandled, rfl⟩
  rcases onAction_routes h with ⟨-, hafter⟩ | ⟨-, h⟩
  · rw [hlines] at hafter
    exact hlogged (.action hevent) hafter
  rcases onDialogReturn_routes h with ⟨-, hafter⟩ | ⟨-, h⟩
  · rw [hlines] at hafter
    exact hlogged (.dialog hevent) hafter
  rcases onDialogGrowIDApply_cases h with ⟨-, rfl⟩ | ⟨pTable, hrefused, hsent⟩ | ⟨hregisters, happly⟩
  · exact repliesTo_silent rfl
  · rw [hlines] at hrefused hsent
    rcases pTable.registerPlayer_cases (submissionOf text).name (submissionOf text).password
      (submissionOf text).verifyPassword with ⟨-, hsuccess⟩ | ⟨-, -, hne, hclean⟩
    · exact absurd hsuccess hrefused.result
    · exact ⟨_, .refused (length_refusal_le _ _ _ _),
        sendDialog_registration hne (clean_submission text hclean) hsent⟩
  · rw [hlines] at hregisters happly
    obtain ⟨hname, hpassword⟩ := fits_of_registers hregisters
    exact ⟨_, .registered hregisters happly, applyGrowID_replies happly hname hpassword⟩

/-- The seven forms are all. -/
theorem handleText_replies (h : handleText globals text avatar = .ok after) :
    RepliesTo globals text avatar after := by
  unfold handleText at h
  simp only [lookup_textEvents] at h
  by_cases haction : eventNameOf text = ascii "action"
  · simp only [if_pos haction] at h
    exact onAction_replies haction h
  simp only [if_neg haction] at h
  by_cases hname : eventNameOf text = ascii "requestedName"
  · simp only [if_pos hname] at h
    exact onRequestedName_replies h
  · simp only [if_neg hname] at h
    have hnone : textEvents.lookup (eventNameOf text) = none := by
      rw [lookup_textEvents, if_neg haction, if_neg hname]
    rw [← Except.ok.inj h]
    exact ⟨_, .logged (.event hnone), rfl⟩

end Forms

/-! ### The packets of a reply -/

namespace Request

/-- The bytes that are handed to ENet. -/
def sentLength (peers : PeerArgument → ENetPeer) (request : Request) : ℕ :=
  (((request.sent peers).getD []).map fun sent => sent.2.length).sum

/-- The request is sent as one packet, all of it stored, in which the receiver finds the text
or the list. -/
def Delivered (peers : PeerArgument → ENetPeer) : Request → Prop
  | text peer data => ∃ packet,
    sendText (some (peers peer)) data = some [(peers peer, stored packet)] ∧
      ∀ id, isText ⟨id, packet⟩ ∧ packetText ⟨id, packet⟩ = data
  | variantList peer vList => ∃ packet,
    sendVariantList (some (peers peer)) vList = some [(peers peer, stored packet)] ∧
      SelfDescribing vList packet
  | disconnectLater => True

/-- The size of the packet, where its lengths do not overflow. -/
def size : Request → ℕ
  | text _ data => 5 + data.length
  | variantList _ vList => 5 + sizeofTankPacketData + vList.getMemoryUsage
  | disconnectLater => 0

def FewObjects : Request → Prop
  | variantList _ vList => vList.m_objects.length ≤ 255
  | _ => True

variable {peers : PeerArgument → ENetPeer} {request : Request}

theorem sentLength_eq (h : request.size < 2 ^ 32) :
    request.sentLength peers = request.size := by
  have htype (packetType : NetMessageType) : (Pod.toBytes packetType.value).length = 4 :=
    Pod.length_toBytes _
  have hwire (packetType : NetMessageType) (payload : Bytes) :
      (stored (wireBytes packetType payload)).length = 5 + payload.length := by
    rw [stored_length, wireBytes, List.length_append, List.length_append, htype,
      List.length_singleton]
    omega
  cases request with
  | text peer data =>
    rw [sentLength, sent, sendText_eq]
    exact hwire .gameMessage data
  | variantList peer vList =>
    have husage : vList.getMemoryUsage < 2 ^ 32 := lt_of_le_of_lt (Nat.le_add_left _ _) h
    rw [sentLength, sent, sendVariantList_eq (peers peer) vList husage]
    show (stored (wireBytes .gamePacket _)).length + 0 = 5 + sizeofTankPacketData + _
    rw [hwire, variantBody_length]
    omega
  | disconnectLater => rfl

theorem delivered_of_size (h : request.size < 2 ^ 32) (hfew : request.FewObjects) :
    request.Delivered peers := by
  cases request with
  | text peer data =>
    have hshort : data.length < 2 ^ 32 := lt_of_le_of_lt (Nat.le_add_left _ _) h
    exact ⟨_, sendText_eq (peers peer) data,
      fun id => ⟨isText_wireBytes id data, packetText_of_short id hshort⟩⟩
  | variantList peer vList =>
    have hsize : sizeofTankPacketData + vList.getMemoryUsage < 2 ^ 32 := by
      have hall : 5 + sizeofTankPacketData + vList.getMemoryUsage < 2 ^ 32 := h
      omega
    exact exists_selfDescribing hfew hsize
  | disconnectLater => trivial

end Request

def totalSize (requests : List Request) : ℕ := (requests.map Request.size).sum

theorem totalSize_append (requests replies : List Request) :
    totalSize (requests ++ replies) = totalSize requests + totalSize replies := by
  rw [totalSize, List.map_append, List.sum_append]
  rfl

theorem size_le_totalSize {request : Request} {requests : List Request} (h : request ∈ requests) :
    request.size ≤ totalSize requests :=
  List.le_sum_of_mem (List.mem_map_of_mem h)

theorem length_registrationText (values : Hole → Bytes) :
    (registrationText values).length = 607 + (values .extraMessage).length +
      (values .logon).length + (values .password).length + (values .verifyPassword).length := by
  have hfixed : (Template.render 10 124
      (Template.fill (fun _ : Hole => ([] : Bytes)) registrationTemplate)).length = 607 := by
    decide +kernel
  have hholes : Template.filledLength values registrationTemplate =
      (values .extraMessage).length + (values .logon).length + (values .password).length +
        (values .verifyPassword).length := by
    simp [Template.filledLength, registrationTemplate, Template.Field.filledLength]
    omega
  rw [registrationText, Template.length_render_fill, hfixed, hholes]
  omega

/-! ### The size of a reply -/

theorem usage_pair (executionDelay netId : Int32) (first second : Bytes) :
    VariantList.getMemoryUsage ⟨executionDelay, netId, [.string first, .string second]⟩ =
      13 + first.length + second.length := by
  simp only [VariantList.getMemoryUsage, List.foldl_cons, List.foldl_nil, Variant.getMemoryUsage]
  omega

theorem size_sendData (delayMS : Int32) (db : DialogBuilder) :
    (Request.variantList .m_pPeer (sendData delayMS db)).size = 89 + db.m_result.length := by
  have hname : (ascii "OnDialogRequest").length = 15 := by decide +kernel
  have hsize : sizeofTankPacketData = 56 := rfl
  have husage := usage_pair delayMS (-1) (ascii "OnDialogRequest") db.m_result
  show 5 + sizeofTankPacketData + VariantList.getMemoryUsage
    ⟨delayMS, -1, [.string (ascii "OnDialogRequest"), .string db.m_result]⟩ = _
  omega

theorem size_onConsoleMessage (peer : PeerArgument) (message : Bytes) :
    (Request.variantList peer ((VariantList.create (ascii "OnConsoleMessage") 0).insert
      (.string message))).size = 90 + message.length := by
  have hname : (ascii "OnConsoleMessage").length = 16 := by decide +kernel
  have hsize : sizeofTankPacketData = 56 := rfl
  have husage := usage_pair 0 (-1) (ascii "OnConsoleMessage") message
  show 5 + sizeofTankPacketData + VariantList.getMemoryUsage
    ⟨0, -1, [.string (ascii "OnConsoleMessage"), .string message]⟩ = _
  omega

theorem registeredReplies_eq (name password : Bytes) :
    ∃ sound, sound.length = 49 ∧ registeredReplies name password =
      [.text .pAvatar sound,
        .variantList .pAvatar ⟨0, -1, [.string (ascii "SetHasGrowID"), .int 1, .string name,
          .string password]⟩,
        .variantList .pAvatar ((VariantList.create (ascii "OnConsoleMessage") 0).insert
          (.string (registeredMessage name))),
        .variantList .pAvatar ((VariantList.create (ascii "OnConsoleMessage") 0).insert
          (.string welcomeMessage))] := by
  refine ⟨_, ?_, rfl⟩
  decide +kernel

/-- What a reply may weigh, against the text it answers. -/
def replyBudget (text : Bytes) : ℕ := 832 + 3 * text.length

/-- The replies to one text are few, and can be sent. -/
structure Bounded (text : Bytes) (replies : List Request) : Prop where
  count : replies.length ≤ 4
  size : totalSize replies ≤ replyBudget text
  few : ∀ request ∈ replies, request.FewObjects

theorem bounded_singleton {text : Bytes} {request : Request}
    (hsize : request.size ≤ replyBudget text) (hfew : request.FewObjects) :
    Bounded text [request] where
  count := by simp
  size := by simpa [totalSize] using hsize
  few := by simpa using hfew

theorem bounded_registered (text : Bytes) {name password : Bytes} (hname : name.length ≤ 18)
    (hpassword : password.length ≤ 24) : Bounded text (registeredReplies name password) := by
  obtain ⟨sound, hsound, heq⟩ := registeredReplies_eq name password
  have hsize : sizeofTankPacketData = 56 := rfl
  have hfixed : (registeredMessage []).length = 114 ∧ welcomeMessage.length = 84 ∧
      (ascii "SetHasGrowID").length = 12 ∧ ([] : Bytes).length = 0 := by
    decide +kernel
  have hmessage : (registeredMessage name).length = 114 + name.length := by
    simp only [registeredMessage, List.length_append] at hfixed ⊢
    omega
  have hfirst : (Request.variantList .pAvatar ⟨0, -1, [.string (ascii "SetHasGrowID"), .int 1,
      .string name, .string password]⟩).size = 98 + name.length + password.length := by
    simp only [Request.size, VariantList.getMemoryUsage, List.foldl_cons, List.foldl_nil,
      Variant.getMemoryUsage]
    omega
  rw [heq]
  refine ⟨by simp, ?_, ?_⟩
  · have htotal : totalSize [.text .pAvatar sound, .variantList .pAvatar ⟨0, -1,
          [.string (ascii "SetHasGrowID"), .int 1, .string name, .string password]⟩,
        .variantList .pAvatar ((VariantList.create (ascii "OnConsoleMessage") 0).insert
          (.string (registeredMessage name))),
        .variantList .pAvatar ((VariantList.create (ascii "OnConsoleMessage") 0).insert
          (.string welcomeMessage))] =
        (5 + sound.length) + ((98 + name.length + password.length) +
          ((90 + (registeredMessage name).length) + (90 + welcomeMessage.length))) := by
      simp only [totalSize, List.map_cons, List.map_nil, List.sum_cons, List.sum_nil, hfirst,
        size_onConsoleMessage]
      rfl
    rw [htotal, replyBudget]
    omega
  · intro request hrequest
    simp only [List.mem_cons, List.not_mem_nil, or_false] at hrequest
    rcases hrequest with rfl | rfl | rfl | rfl
    · trivial
    · show (4 : ℕ) ≤ 255
      decide
    · show (2 : ℕ) ≤ 255
      decide
    · show (2 : ℕ) ≤ 255
      decide

theorem size_log (peer : PeerArgument) (message : Bytes) :
    (Request.text peer (CAction.logEntries message).getAsString).size = 21 + message.length := by
  have hfixed : (ascii "action|log\nmsg|").length = 15 ∧ newline.bytes.length = 1 := by
    decide +kernel
  rw [Request.size, logEntries_getAsString, List.length_append, List.length_append]
  omega

theorem bounded_replies {globals : Globals} {text : Bytes} {avatar after : Avatar}
    {replies : List Request} (hlen : text.length ≤ 0x400)
    (h : Replies globals text avatar after replies) : Bounded text replies := by
  cases h with
  | silent => exact ⟨by simp, Nat.zero_le _, by simp⟩
  | logged hunhandled =>
    obtain ⟨before, name, after, rfl, hbefore, hafter, -, hname, -⟩ :=
      unhandled_echoes hlen hunhandled
    refine bounded_singleton ?_ trivial
    have hbeforeLen := hbefore.length_le
    have hafterLen := hafter.length_le
    rw [size_log, replyBudget, List.length_append, List.length_append]
    omega
  | disconnected => exact bounded_singleton (Nat.zero_le _) trivial
  | turnedAway =>
    have hmessage : invalidNameMessage.length ≤ 128 := by decide +kernel
    refine ⟨by simp, ?_, by simp [Request.FewObjects]⟩
    have htotal : totalSize [.text .pAvatar (CAction.logEntries invalidNameMessage).getAsString,
        .disconnectLater] = 21 + invalidNameMessage.length := by
      simp only [totalSize, List.map_cons, List.map_nil, List.sum_cons, List.sum_nil, size_log]
      rfl
    rw [htotal, replyBudget]
    omega
  | asked hvList =>
    obtain ⟨db, hdb⟩ : ∃ db : DialogBuilder, PlayerDialog.send .registration {} =
        .ok (sendData 0 db) ∧ db.m_result.length ≤ 603 := ⟨_, rfl, by decide +kernel⟩
    obtain rfl := Except.ok.inj (hvList.symm.trans hdb.1)
    refine bounded_singleton ?_ (show (2 : ℕ) ≤ 255 by decide)
    rw [size_sendData, replyBudget]
    omega
  | @refused message hmessage =>
    have hlogon := length_lookup_le text (ascii "logon") 1
    have hpassword := length_lookup_le text (ascii "password") 1
    have hverify := length_lookup_le text (ascii "verify_password") 1
    have hlength := length_registrationText ((submissionOf text).values message)
    refine bounded_singleton ?_ (show (2 : ℕ) ≤ 255 by decide)
    rw [size_sendData, hlength, replyBudget]
    show 89 + (607 + message.length + (TextParse.lookup _ 1 _).length +
      (TextParse.lookup _ 1 _).length + (TextParse.lookup _ 1 _).length) ≤ _
    omega
  | registered hregisters =>
    obtain ⟨-, pTable, -, hregistrable⟩ := hregisters
    exact bounded_registered text hregistrable.name_length.2 hregistrable.password_length.2

/-! ### The replies of a whole run -/

/-- The text is one that the network thread hands to the worker. -/
def Message.Received (message : Message) : Prop :=
  ∃ packet, acceptsLength packet ∧ message.text = packetText packet

theorem Message.Received.length_le {message : Message} (h : message.Received) :
    message.text.length ≤ 0x400 := by
  obtain ⟨packet, hlength, htext⟩ := h
  rw [htext]
  exact length_packetText_le hlength

namespace Worker

/-- What is sent in answer to a run of texts, in the order of the texts. -/
inductive Answers : List Message → List Request → Prop where
  | nil : Answers [] []
  | cons {message : Message} {messages : List Message} {replies requests : List Request}
    (hreplies : Bounded message.text replies) (hrest : Answers messages requests) :
    Answers (message :: messages) (replies ++ requests)

theorem answers_of_run {messages : List Message} {avatar after : Avatar}
    (hreceived : ∀ message ∈ messages, message.Received)
    (hafter : exec (untilFailure handle) (.ok avatar) messages = .ok after) :
    ∃ requests, Answers messages requests ∧ after.requests = avatar.requests ++ requests := by
  induction messages generalizing avatar with
  | nil =>
    obtain rfl := Except.ok.inj hafter
    exact ⟨[], .nil, (List.append_nil _).symm⟩
  | cons message messages ih =>
    obtain ⟨hfirst, hrest⟩ := List.forall_mem_cons.mp hreceived
    obtain ⟨next, hnext, hafter⟩ := exec_cons_eq_ok.mp hafter
    obtain ⟨replies, hreplies, hsame⟩ := handleText_replies hnext
    obtain ⟨requests, hanswers, hlast⟩ := ih hrest hafter
    refine ⟨replies ++ requests, .cons (bounded_replies hfirst.length_le hreplies) hanswers, ?_⟩
    rw [hlast, hsame, List.append_assoc]

theorem Answers.deliverable {messages : List Message} {requests : List Request}
    (hreceived : ∀ message ∈ messages, message.Received) (h : Answers messages requests) :
    ∀ request ∈ requests, request.size < 2 ^ 32 ∧ request.FewObjects := by
  induction h with
  | nil =>
    intro request hrequest
    cases hrequest
  | cons hreplies hrest ih =>
    obtain ⟨hfirst, hmessages⟩ := List.forall_mem_cons.mp hreceived
    intro request hrequest
    rcases List.mem_append.mp hrequest with hnew | hlater
    · have hsize := size_le_totalSize hnew
      have htotal := hreplies.size
      have hlength := hfirst.length_le
      rw [replyBudget] at htotal
      exact ⟨by omega, hreplies.few request hnew⟩
    · exact ih hmessages request hlater

theorem Answers.total {messages : List Message} {requests : List Request}
    (h : Answers messages requests) :
    requests.length ≤ 4 * messages.length ∧
      totalSize requests ≤ (messages.map fun message => replyBudget message.text).sum := by
  induction h with
  | nil => exact ⟨Nat.le_refl 0, Nat.le_refl 0⟩
  | cons hreplies hrest ih =>
    obtain ⟨hcount, hsize⟩ := ih
    have hnewCount := hreplies.count
    have hnewSize := hreplies.size
    rw [List.length_append, List.length_cons, totalSize_append, List.map_cons, List.sum_cons]
    exact ⟨by omega, by omega⟩

/-- Whatever a client sends, every packet that is built in answer is sound: all of it was
stored, and its receiver finds in it the text or the call that was sent. -/
theorem replies_delivered {player : Player} {messages : List Message} {after : Avatar}
    (peers : PeerArgument → ENetPeer) (hreceived : ∀ message ∈ messages, message.Received)
    (hafter : exec (untilFailure handle) (.ok { player }) messages = .ok after) :
    ∀ request ∈ after.requests, request.Delivered peers := by
  obtain ⟨requests, hanswers, hlast⟩ := answers_of_run hreceived hafter
  rw [hlast]
  intro request hrequest
  obtain ⟨hsize, hfew⟩ := hanswers.deliverable hreceived request hrequest
  exact Request.delivered_of_size hsize hfew

theorem received_text {text : Bytes} (globals : Globals)
    (h : (wireBytes .gameMessage text).length ≤ 0x400) (hlength : text.length < 2 ^ 32) :
    Message.Received ⟨globals, text⟩ := by
  have htype : (Pod.toBytes NetMessageType.gameMessage.value).length = 4 := Pod.length_toBytes _
  refine ⟨received text, ?_, (packetText_of_short 0 hlength).symm⟩
  have hlong : 5 ≤ (wireBytes .gameMessage text).length := by
    rw [wireBytes, List.length_append, List.length_append, htype, List.length_singleton]
    omega
  rw [acceptsLength, Bool.and_eq_true]
  exact ⟨decide_eq_true hlong, decide_eq_true h⟩

def loginRegistration : List Message := [login, registration]

theorem received_loginRegistration : ∀ message ∈ loginRegistration, message.Received := by
  intro message hmessage
  rcases List.mem_pair.mp hmessage with rfl | rfl
  · exact received_text _ (by decide +kernel) (by decide +kernel)
  · exact received_text _ (by decide +kernel) (by decide +kernel)

theorem handled_loginRegistration :
    ∃ after, exec (untilFailure handle) (.ok newcomer) loginRegistration = .ok after := ⟨_, rfl⟩

theorem replies_delivered_registration :
    ∃ after, exec (untilFailure handle) (.ok newcomer) loginRegistration = .ok after ∧
      ∀ request ∈ after.requests, request.Delivered fun _ => 7 := by
  obtain ⟨after, hafter⟩ := handled_loginRegistration
  exact ⟨after, hafter,
    @replies_delivered newcomer.player _ _ (fun _ => 7) received_loginRegistration hafter⟩

/-- What a run of texts makes the worker send is linear in the texts: at most four packets for
each, and at most 832 bytes and three times the text. -/
theorem replies_bounded {player : Player} {messages : List Message} {after : Avatar}
    (peers : PeerArgument → ENetPeer) (hreceived : ∀ message ∈ messages, message.Received)
    (hafter : exec (untilFailure handle) (.ok { player }) messages = .ok after) :
    after.requests.length ≤ 4 * messages.length ∧
      (after.requests.map (Request.sentLength peers)).sum ≤
        (messages.map fun message => replyBudget message.text).sum := by
  obtain ⟨requests, hanswers, hlast⟩ := answers_of_run hreceived hafter
  have hsame : requests.map (Request.sentLength peers) = requests.map Request.size :=
    List.map_congr_left fun request hrequest =>
      Request.sentLength_eq (hanswers.deliverable hreceived request hrequest).1
  rw [hlast]
  show requests.length ≤ _ ∧ (requests.map (Request.sentLength peers)).sum ≤ _
  rw [hsame]
  exact hanswers.total

end Worker

end GrowServer
