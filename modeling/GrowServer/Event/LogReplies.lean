import GrowServer.Event.HandlerEffects
import GrowServer.Server.TextTransport
import GrowServer.Utils.TextNumber

/-!
# Log replies (Packet/TextFunction.hpp, CAction::Log; Event/EventPool.cpp, Event/TextEvents)

A text that no handler takes is answered by a log of the name it gave. An unknown action or
dialog was named by a field of the parsed text; an unknown event is named by the raw text up
to its first bar. The reply is a text of lines again, which the receiver parses.
-/

namespace GrowServer
open LittleEndian Outcome Memory

/-- A text that the lines of another can hold. -/
def Unbroken (text : Bytes) : Prop := (10 : UInt8) ∉ text ∧ (13 : UInt8) ∉ text

instance (text : Bytes) : Decidable (Unbroken text) := inferInstanceAs (Decidable (_ ∧ _))

theorem unbroken_append (s t : Bytes) : Unbroken (s ++ t) ↔ Unbroken s ∧ Unbroken t := by
  simp only [Unbroken, List.mem_append, not_or]
  tauto

theorem unbroken_lookup (text key : Bytes) (index : ℤ) :
    Unbroken (TextParse.lookup key index (TextParse.textLines text)) := by
  rcases TextParse.lookup_cases key index (TextParse.textLines text) with hnil | ⟨line, hline, hfield⟩
  · rw [hnil]
    exact ⟨List.not_mem_nil, List.not_mem_nil⟩
  · have hpart := Split.infix_of_mem_splitOn (List.mem_of_mem_filter hfield)
    obtain ⟨hnewline, hreturn⟩ := TextParse.mem_textLines hline
    exact ⟨fun hmem => hnewline (hpart.subset hmem), fun hmem => hreturn (hpart.subset hmem)⟩

theorem unbroken_toDecimal (z : ℤ) : Unbroken (toDecimal z) := by
  have hother {byte : UInt8} (hsign : byte ≠ 45) (hdigit : ¬ Decimal.IsDigit byte) :
      byte ∉ toDecimal z := fun h => (TextParse.mem_toDecimal h).elim hsign hdigit
  exact ⟨hother (by decide) fun h => absurd h.1 (by decide),
    hother (by decide) fun h => absurd h.1 (by decide)⟩

theorem length_lookup_le (text key : Bytes) (index : ℤ) :
    (TextParse.lookup key index (TextParse.textLines text)).length ≤ text.length := by
  rcases TextParse.lookup_cases key index (TextParse.textLines text) with hnil | ⟨line, hline, hfield⟩
  · rw [hnil]
    exact Nat.zero_le _
  · obtain ⟨piece, hpiece, rfl⟩ := List.mem_map.mp hline
    have hfieldLen := (Split.infix_of_mem_splitOn (List.mem_of_mem_filter hfield)).length_le
    have hlineLen := List.length_filter_le (fun byte => decide (byte ≠ (13 : UInt8))) piece
    have hpieceLen := (Split.infix_of_mem_splitOn (List.mem_of_mem_filter hpiece)).length_le
    omega

/-! ### What an event is named by -/

theorem length_eventNameOf_le (text : Bytes) : (eventNameOf text).length ≤ text.length := by
  unfold eventNameOf
  cases findFrom text bar.bytes 0 with
  | none => exact Nat.le_refl _
  | some pos => exact List.length_take_le' pos text

theorem bar_not_mem_eventNameOf (text : Bytes) : (124 : UInt8) ∉ eventNameOf text := by
  have hfrom : findFrom text bar.bytes 0 = Split.find [124] text := by
    rw [findFrom, List.drop_zero]
    exact Option.map_id'
  unfold eventNameOf
  rw [hfrom, ← List.singleton_infix_iff]
  cases hfind : Split.find [124] text with
  | none => exact Split.not_infix_of_find_none hfind
  | some pos => exact Split.not_infix_take_of_find (List.cons_ne_nil _ _) hfind

/-! ### The three replies -/

/-- The texts that are answered by a log, and the message of the log. -/
inductive Unhandled (text : Bytes) : Bytes → Prop where
  | event (h : textEvents.lookup (eventNameOf text) = none) :
    Unhandled text (ascii "`oUnhandled Event, eventName(`w" ++ eventNameOf text ++
      ascii "``) textParse(`w" ++ toDecimal (TextParse.parse text).getSize ++
      ascii "``) tankData(`w0x0``)``")
  | action (hevent : eventNameOf text = ascii "action") :
    Unhandled text (unhandledAction
      (TextParse.lookup (ascii "action") 1 (TextParse.textLines text)))
  | dialog (hevent : eventNameOf text = ascii "action") :
    Unhandled text (unhandledDialog
      (TextParse.lookup (ascii "dialog_name") 1 (TextParse.textLines text)))

section Requests
variable {globals : Globals} {eventParser : TextParse} {avatar after : Avatar} {data : Bytes}

theorem send_ne_text {other : Avatar} {request : Request} (h : request ≠ .text .pAvatar data) :
    (other.send request).requests ≠ avatar.requests ++ [.text .pAvatar data] := by
  intro heq
  obtain ⟨-, hlast⟩ := List.append_inj' heq rfl
  exact h (List.cons.inj hlast).1

theorem onRequestedName_ne_text (h : onRequestedName globals eventParser avatar = .ok after) :
    after.requests ≠ avatar.requests ++ [.text .pAvatar data] := by
  have hdisconnect : Request.disconnectLater ≠ .text .pAvatar data := fun heq => by cases heq
  unfold onRequestedName at h
  split at h
  · rw [← Except.ok.inj h]
    simp
  obtain ⟨⟨serialized, m_detail⟩, -, h⟩ := bind_eq_ok.mp h
  cases serialized with
  | false =>
    rw [← Except.ok.inj h]
    exact send_ne_text hdisconnect
  | true =>
    simp only [not_true, if_false, acceptName] at h
    split at h
    · rw [← Except.ok.inj h]
      exact send_ne_text hdisconnect
    · obtain ⟨vList, -, rfl⟩ := sendDialog_ok h
      exact send_ne_text fun heq => by cases heq

theorem onDialogGrowIDApply_ne_text
    (h : onDialogGrowIDApply globals eventParser avatar = .ok after) :
    after.requests ≠ avatar.requests ++ [.text .pAvatar data] := by
  rcases onDialogGrowIDApply_cases h with ⟨-, rfl⟩ | ⟨pTable, -, hsent⟩ | ⟨hregisters, happly⟩
  · simp
  · obtain ⟨vList, -, rfl⟩ := sendDialog_ok hsent
    exact send_ne_text fun heq => by cases heq
  · obtain ⟨hname, hpassword⟩ := fits_of_registers hregisters
    have hcount := (applyGrowID_ok happly hname hpassword).2
    intro heq
    rw [heq] at hcount
    simp at hcount

end Requests

section Text
variable {globals : Globals} {avatar : Avatar} {text message : Bytes}

theorem logEntries_getAsString (message : Bytes) :
    (CAction.logEntries message).getAsString =
      ascii "action|log\nmsg|" ++ (message ++ newline.bytes) := rfl

theorem log_requests_inj {other : Bytes}
    (h : (CAction.log avatar .pAvatar other).requests = (CAction.log avatar .pAvatar message).requests) :
    other = message := by
  obtain ⟨-, hlast⟩ := List.append_inj' h rfl
  have htext := (Request.text.inj (List.cons.inj hlast).1).2
  rw [logEntries_getAsString, logEntries_getAsString] at htext
  exact List.append_cancel_right (List.append_cancel_left htext)

theorem unhandled_of_log
    (h : handleText globals text avatar = .ok (CAction.log avatar .pAvatar message)) :
    Unhandled text message := by
  have hsilent : CAction.log avatar .pAvatar message ≠ avatar := by
    intro heq
    have hrequests := congrArg Avatar.requests heq
    simp [CAction.log, Avatar.send] at hrequests
  have hlogged {other : Bytes} (heq : CAction.log avatar .pAvatar message = avatar ∨
      CAction.log avatar .pAvatar message = CAction.log avatar .pAvatar other) : other = message := by
    rcases heq with heq | heq
    · exact absurd heq hsilent
    · exact log_requests_inj (congrArg Avatar.requests heq.symm)
  unfold handleText at h
  simp only [lookup_textEvents] at h
  by_cases haction : eventNameOf text = ascii "action"
  · simp only [if_pos haction] at h
    have hlines := TextParse.parse_m_data text
    rcases onAction_routes h with ⟨-, hafter⟩ | ⟨-, h⟩
    · rw [hlines] at hafter
      rw [← hlogged hafter]
      exact .action haction
    rcases onDialogReturn_routes h with ⟨-, hafter⟩ | ⟨-, h⟩
    · rw [hlines] at hafter
      rw [← hlogged hafter]
      exact .dialog haction
    · exact absurd rfl (onDialogGrowIDApply_ne_text h)
  simp only [if_neg haction] at h
  by_cases hname : eventNameOf text = ascii "requestedName"
  · simp only [if_pos hname] at h
    exact absurd rfl (onRequestedName_ne_text h)
  · simp only [if_neg hname] at h
    have hnone : textEvents.lookup (eventNameOf text) = none := by
      rw [lookup_textEvents, if_neg haction, if_neg hname]
    rw [← hlogged (Or.inr (Except.ok.inj h).symm)]
    exact .event hnone

/-- A part of a message that is written around the name. -/
structure Framing (part : Bytes) : Prop where
  unbroken : Unbroken part
  bar_not_mem : (124 : UInt8) ∉ part
  length_le : part.length ≤ 64

instance (part : Bytes) : Decidable (Framing part) :=
  decidable_of_iff (Unbroken part ∧ (124 : UInt8) ∉ part ∧ part.length ≤ 64)
    ⟨fun h => ⟨h.1, h.2.1, h.2.2⟩, fun h => ⟨h.1, h.2, h.3⟩⟩

theorem length_getSize_le (hlen : text.length ≤ 0x400) :
    (toDecimal (TextParse.parse text).getSize).length ≤ 4 := by
  have hcount := Split.length_splitOn (10 : UInt8) text
  have hfilter := List.length_filter_le (fun line => decide (line ≠ []))
    (text.splitOn (10 : UInt8))
  have hmem : text.count 10 ≤ text.length := List.count_le_length
  have hsize : (TextParse.parse text).getSize ≤ 0x401 := by
    rw [TextParse.getSize, TextParse.parse_m_data, TextParse.textLines, List.length_map]
    omega
  have hnot : ¬ ((TextParse.parse text).getSize : ℤ) < 0 := by omega
  rw [toDecimal, Decimal.ascii_toString, if_neg hnot]
  exact Decimal.length_numeral_le (by omega) (by rw [Int.natAbs_natCast]; omega)

theorem framing_eventEnd (hlen : text.length ≤ 0x400) :
    Framing (ascii "``) textParse(`w" ++ toDecimal (TextParse.parse text).getSize ++
      ascii "``) tankData(`w0x0``)``") := by
  have hdigits := length_getSize_le hlen
  have hbefore : Framing (ascii "``) textParse(`w") := by decide +kernel
  have hafter : Framing (ascii "``) tankData(`w0x0``)``") := by decide +kernel
  have hlengths : (ascii "``) textParse(`w").length ≤ 30 ∧
    (ascii "``) tankData(`w0x0``)``").length ≤ 30 := by decide +kernel
  refine ⟨?_, ?_, ?_⟩
  · rw [unbroken_append, unbroken_append]
    exact ⟨⟨hbefore.unbroken, unbroken_toDecimal _⟩, hafter.unbroken⟩
  · rw [List.mem_append, List.mem_append, not_or, not_or]
    exact ⟨⟨hbefore.bar_not_mem, TextParse.bar_not_mem_toDecimal _⟩, hafter.bar_not_mem⟩
  · rw [List.length_append, List.length_append]
    omega

/-- A message is a name between two fixed parts. Only the name of an event can break it. -/
theorem unhandled_echoes (hlen : text.length ≤ 0x400) (h : Unhandled text message) :
    ∃ before name after, message = before ++ name ++ after ∧ Framing before ∧ Framing after ∧
      (124 : UInt8) ∉ name ∧ name.length ≤ text.length ∧
      (Unbroken name ↔ Unbroken (eventNameOf text)) := by
  have hfield (hevent : eventNameOf text = ascii "action") (key : Bytes) :
      Unbroken (TextParse.lookup key 1 (TextParse.textLines text)) ↔
        Unbroken (eventNameOf text) := by
    rw [hevent]
    exact iff_of_true (unbroken_lookup text key 1) (by decide +kernel)
  cases h with
  | event =>
    refine ⟨ascii "`oUnhandled Event, eventName(`w", eventNameOf text, _, ?_,
      by decide +kernel, framing_eventEnd hlen,
      bar_not_mem_eventNameOf text, length_eventNameOf_le text, Iff.rfl⟩
    simp only [List.append_assoc]
  | action hevent =>
    exact ⟨_, _, _, rfl, by decide +kernel, by decide +kernel,
      (TextParse.clean_lookup text _ 1).bar_not_mem, length_lookup_le text _ 1, hfield hevent _⟩
  | dialog hevent =>
    exact ⟨_, _, _, rfl, by decide +kernel, by decide +kernel,
      (TextParse.clean_lookup text _ 1).bar_not_mem, length_lookup_le text _ 1, hfield hevent _⟩

/-! ### The reply as it is read -/

/-- The receiver finds the two entries of a log, the second with the whole message. -/
structure ReadsAsLog (packet : ENetPacket) (message : Bytes) : Prop where
  text : isText packet
  entries : (TextParse.parse (packetText packet)).m_data =
    [ascii "action|log", ascii "msg|" ++ message]
  msg : (TextParse.parse (packetText packet)).get (ascii "msg") = .ok message

theorem parse_logEntries_iff (message : Bytes) :
    (TextParse.parse (CAction.logEntries message).getAsString).m_data =
        [ascii "action|log", ascii "msg|" ++ message] ↔ Unbroken message := by
  have hentries : (CAction.logEntries message).m_data =
      [ascii "action|log", ascii "msg|" ++ message] := rfl
  have hread := TextParse.parse_getAsString_iff (CAction.logEntries message)
  rw [hentries] at hread
  rw [hread]
  constructor
  · intro h
    have hmsg := h (ascii "msg|" ++ message) (by simp)
    exact ((unbroken_append _ _).mp
      ⟨hmsg.newline_not_mem, hmsg.carriageReturn_not_mem⟩).2
  · intro h line hline
    have haction : TextParse.CleanLine (ascii "action|log") :=
      ⟨by decide, by decide +kernel, by decide +kernel⟩
    obtain ⟨hnewline, hreturn⟩ := (unbroken_append (ascii "msg|") message).mpr ⟨by decide +kernel, h⟩
    rcases List.mem_cons.mp hline with rfl | hline
    · exact haction
    · rw [List.mem_singleton.mp hline]
      exact ⟨List.cons_ne_nil _ _, hnewline, hreturn⟩

theorem get_msg {s : Bytes} (hbar : (124 : UInt8) ∉ message)
    (h : (TextParse.parse s).m_data = [ascii "action|log", ascii "msg|" ++ message]) :
    (TextParse.parse s).get (ascii "msg") = .ok message := by
  let data := [(ascii "action", ascii "log"), (ascii "msg", message)]
  have hdata : (TextParse.parse s).m_data = (TextParse.ofPairs data).m_data := h
  have hkey : ascii "msg" ≠ [] ∧ (124 : UInt8) ∉ ascii "msg" := by decide
  have hkeyed : ∀ it ∈ data, it.1 ≠ [] ∧ (124 : UInt8) ∉ it.1 ∧ (124 : UInt8) ∉ it.2 := by
    intro it hit
    rcases List.mem_cons.mp hit with rfl | hit
    · decide
    · rw [List.mem_singleton.mp hit]
      exact ⟨hkey.1, hkey.2, hbar⟩
  have hfirst : (data.find? fun it => it.1 = ascii "msg") = some (ascii "msg", message) := rfl
  have hget := TextParse.get_ofPairs data (ascii "msg") 1 fun it hit =>
    ⟨(hkeyed it hit).1, (hkeyed it hit).2.1⟩
  rw [TextParse.get_eq_getLoop, hdata, ← TextParse.get_eq_getLoop, hget,
    TextParse.lookup_ofPairs hkeyed hfirst]

end Text

theorem length_packetText_le {packet : ENetPacket} (h : acceptsLength packet) :
    (packetText packet).length ≤ 0x400 := by
  have hbounds : packet.data.length ≤ 0x400 := by
    have hand := (Bool.and_eq_true _ _).mp h
    exact of_decide_eq_true hand.2
  have htake := List.length_take_le'
    (UInt32.ofNat (packet.data.length - sizeofPacketType) - 1).toNat
    (packet.data.drop sizeofPacketType)
  rw [List.length_drop] at htake
  exact htake.trans (by omega)

/-- A text that is answered by a log only is answered by one the receiver reads as the
action and one message, exactly when what it has before its first bar stays on one line.
That is so of every unknown action and dialog. -/
theorem logReply_reads_iff (globals : Globals) (avatar : Avatar) (peer : ENetPeer) (id : ℕ)
    (packet : ENetPacket) (message : Bytes) (hlength : acceptsLength packet)
    (hreply : handleText globals (packetText packet) avatar =
      .ok (CAction.log avatar .pAvatar message)) :
    (∃ reply, sendText (some peer) (CAction.logEntries message).getAsString =
        some [(peer, stored reply)] ∧ ReadsAsLog ⟨id, reply⟩ message) ↔
      (10 : UInt8) ∉ eventNameOf (packetText packet) ∧
        (13 : UInt8) ∉ eventNameOf (packetText packet) := by
  have hlen := length_packetText_le hlength
  obtain ⟨before, name, after, rfl, hbefore, hafter, hname, hnameLen, hbroken⟩ :=
    unhandled_echoes hlen (unhandled_of_log hreply)
  have hmessage : Unbroken (before ++ name ++ after) ↔
      Unbroken (eventNameOf (packetText packet)) := by
    rw [unbroken_append, unbroken_append, ← hbroken]
    exact ⟨fun h => h.1.2, fun h => ⟨⟨hbefore.unbroken, h⟩, hafter.unbroken⟩⟩
  have hbar : (124 : UInt8) ∉ before ++ name ++ after := by
    rw [List.mem_append, List.mem_append, not_or, not_or]
    exact ⟨⟨hbefore.bar_not_mem, hname⟩, hafter.bar_not_mem⟩
  have hshort : (CAction.logEntries (before ++ name ++ after)).getAsString.length < 2 ^ 32 := by
    have hhead : (ascii "action|log\nmsg|").length = 15 := by decide +kernel
    have hnewline : newline.bytes.length = 1 := rfl
    have hbeforeLen := hbefore.length_le
    have hafterLen := hafter.length_le
    simp only [logEntries_getAsString, List.length_append, hhead, hnewline]
    omega
  have hreceived := packetText_of_short id hshort
  have hentries := parse_logEntries_iff (before ++ name ++ after)
  rw [← hreceived] at hentries
  show _ ↔ Unbroken (eventNameOf (packetText packet))
  rw [← hmessage, ← hentries]
  constructor
  · intro h
    obtain ⟨reply, hsent, hreads⟩ := h
    rw [packet_of_sent hsent] at hreads
    exact hreads.entries
  · intro h
    exact ⟨_, sendText_eq peer _, isText_wireBytes id _, h, get_msg hbar h⟩

def received (text : Bytes) : ENetPacket := ⟨0, wireBytes .gameMessage text⟩

theorem logReply_reads_iff_hello :
    (∃ reply, sendText (some 0) (CAction.logEntries
        (ascii "`oUnhandled Event, eventName(`whello``) textParse(`w1``) tankData(`w0x0``)``")
          ).getAsString = some [(0, stored reply)] ∧
        ReadsAsLog ⟨0, reply⟩
          (ascii "`oUnhandled Event, eventName(`whello``) textParse(`w1``) tankData(`w0x0``)``")) ↔
      (10 : UInt8) ∉ eventNameOf (packetText (received (ascii "hello|world"))) ∧
        (13 : UInt8) ∉ eventNameOf (packetText (received (ascii "hello|world"))) :=
  logReply_reads_iff ⟨{}, none⟩ newcomer 0 0 (received (ascii "hello|world")) _
    (by decide +kernel) rfl

/-- A newline and no bar. -/
theorem not_logReply_reads :
    ¬ ∀ globals avatar peer id packet message, acceptsLength packet →
      handleText globals (packetText packet) avatar = .ok (CAction.log avatar .pAvatar message) →
      ∃ reply, sendText (some peer) (CAction.logEntries message).getAsString =
        some [(peer, stored reply)] ∧ ReadsAsLog ⟨id, reply⟩ message := by
  have hreply : handleText ⟨{}, none⟩ (packetText (received (ascii "a\nb"))) newcomer =
      .ok (CAction.log newcomer .pAvatar
        (ascii "`oUnhandled Event, eventName(`wa\nb``) textParse(`w2``) tankData(`w0x0``)``")) :=
    rfl
  intro h
  obtain ⟨reply, hsent, hreads⟩ :=
    h ⟨{}, none⟩ newcomer 0 0 (received (ascii "a\nb")) _ (by decide +kernel) hreply
  rw [packet_of_sent hsent] at hreads
  have hentries := hreads.entries
  rw [packetText_of_short 0 (by decide +kernel)] at hentries
  exact absurd hentries (by decide +kernel)

end GrowServer
