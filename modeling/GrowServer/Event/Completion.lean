import GrowServer.Event.RegistrationDialog
import GrowServer.Event.LogReplies

/-!
# When a text is handled to the end (Event/TextEvents, Event/Dialogs/AccountDialog.hpp)

Every way in which a handler can fail, along the path the text takes through the handlers:
a lookup that passes a line without a field, and a game version that does not convert. The
first line of a text that is routed begins with the name it is routed by, so the lookups of
the names themselves do not fail.
-/

namespace GrowServer
open LittleEndian Outcome StdNumber

/-! ### The first line -/

/-- The text is the name, and where it goes on it goes on with a bar. -/
theorem eventNameOf_append (text : Bytes) :
    ∃ rest, text = eventNameOf text ++ rest ∧ ∀ byte tail, rest = byte :: tail → byte = 124 := by
  have hfrom : findFrom text bar.bytes 0 = Split.find [124] text := by
    rw [findFrom, List.drop_zero]
    exact Option.map_id'
  unfold eventNameOf
  rw [hfrom]
  cases hfind : Split.find [124] text with
  | none =>
    refine ⟨[], (List.append_nil text).symm, ?_⟩
    intro byte tail h
    cases h
  | some pos =>
    have hsplit := Split.find_split hfind
    rw [List.append_assoc] at hsplit
    refine ⟨124 :: text.drop (pos + 1), hsplit.symm, ?_⟩
    intro byte tail h
    exact (List.cons.inj h).1.symm

theorem splitOn_append_of_not_mem {c : UInt8} {s t : Bytes} (hs : c ∉ s) :
    ∃ piece pieces, t.splitOn c = piece :: pieces ∧ (s ++ t).splitOn c = (s ++ piece) :: pieces := by
  obtain ⟨piece, pieces, hpieces⟩ := List.exists_cons_of_ne_nil (List.splitOn_ne_nil c t)
  refine ⟨piece, pieces, hpieces, ?_⟩
  have hclean : ∀ l ∈ (s ++ piece) :: pieces, c ∉ l := by
    have htail (l : Bytes) (hl : l ∈ t.splitOn c) : c ∉ l := Split.not_mem_of_mem_splitOn hl
    intro l hl
    rcases List.mem_cons.mp hl with rfl | hl
    · rw [List.mem_append, not_or]
      exact ⟨hs, htail piece (by simp [hpieces])⟩
    · exact htail l (by simp [hpieces, hl])
  have hjoin : s ++ t = [c].intercalate ((s ++ piece) :: pieces) := by
    have ht : [c].intercalate (t.splitOn c) = t := List.intercalate_splitOn c
    rw [hpieces] at ht
    rw [← ht]
    cases pieces with
    | nil => simp
    | cons next pieces =>
      rw [List.intercalate_cons_cons, List.intercalate_cons_cons]
      simp only [List.append_assoc]
  rw [hjoin]
  exact List.splitOn_intercalate c hclean (List.cons_ne_nil _ _)

/-- What a name is followed by begins with a bar, so its line has it as first field. -/
theorem head_fields_append {name piece : Bytes} (hne : name ≠ []) (hbar : (124 : UInt8) ∉ name)
    (h : ∀ byte tail, piece = byte :: tail → byte = 124) :
    (TextParse.fields (name ++ piece)).head? = some name := by
  cases piece with
  | nil =>
    rw [List.append_nil, TextParse.fields, List.splitOn_eq_singleton hbar,
      List.filter_cons_of_pos (by simpa using hne)]
    rfl
  | cons byte tail =>
    obtain rfl := h byte tail rfl
    have hpair := TextParse.fields_pair name tail hne hbar
    rw [List.append_assoc] at hpair
    have hfields : TextParse.fields (name ++ 124 :: tail) = name :: TextParse.fields tail := hpair
    rw [hfields]
    rfl

/-- The name of an event that stays on one line is the first field of the first line. -/
theorem textLines_of_eventNameOf {text : Bytes} (hne : eventNameOf text ≠ [])
    (hunbroken : Unbroken (eventNameOf text)) :
    ∃ line lines, TextParse.textLines text = line :: lines ∧
      (TextParse.fields line).head? = some (eventNameOf text) := by
  obtain ⟨hnewline, hreturn⟩ := hunbroken
  obtain ⟨rest, htext, hrest⟩ := eventNameOf_append text
  obtain ⟨piece, pieces, hpieces, hsplit⟩ := splitOn_append_of_not_mem (t := rest) hnewline
  have hpiece : ∀ byte tail, piece.filter (fun byte => decide (byte ≠ (13 : UInt8))) = byte :: tail →
      byte = 124 := by
    cases rest with
    | nil =>
      rw [List.splitOn_nil] at hpieces
      obtain ⟨rfl, -⟩ := List.cons.inj hpieces
      intro byte tail h
      cases h
    | cons first rest =>
      obtain rfl := hrest first rest rfl
      rw [List.splitOn_cons_eq_if_modifyHead, if_neg (by decide)] at hpieces
      obtain ⟨inner, others, hinner⟩ := List.exists_cons_of_ne_nil (List.splitOn_ne_nil 10 rest)
      rw [hinner, List.modifyHead_cons] at hpieces
      obtain ⟨rfl, -⟩ := List.cons.inj hpieces
      intro byte tail h
      rw [List.filter_cons_of_pos (by decide)] at h
      exact (List.cons.inj h).1.symm
  have hkept : (eventNameOf text).filter (fun byte => decide (byte ≠ (13 : UInt8))) =
      eventNameOf text := by
    rw [List.filter_eq_self]
    exact fun byte hbyte => decide_eq_true fun heq => hreturn (heq ▸ hbyte)
  have hline : decide (eventNameOf text ++ piece ≠ []) = true :=
    decide_eq_true fun h => hne (List.append_eq_nil_iff.mp h).1
  rw [← htext] at hsplit
  have hlines : TextParse.textLines text =
      (eventNameOf text ++ piece.filter fun byte => decide (byte ≠ (13 : UInt8))) ::
        (pieces.filter (· ≠ [])).map fun line => line.filter (· ≠ (13 : UInt8)) := by
    rw [TextParse.textLines, hsplit, List.filter_cons, if_pos hline, List.map_cons,
      List.filter_append, hkept]
  exact ⟨_, _, hlines, head_fields_append hne (bar_not_mem_eventNameOf text) hpiece⟩

/-- So looking up the name passes no line. -/
theorem everyLineKeyed_eventNameOf {text key : Bytes} (hevent : eventNameOf text = key)
    (hne : key ≠ []) (hunbroken : Unbroken key) :
    TextParse.EveryLineKeyed key (TextParse.textLines text) := by
  subst hevent
  obtain ⟨line, lines, hlines, hhead⟩ := textLines_of_eventNameOf hne hunbroken
  rw [hlines, TextParse.everyLineKeyed_cons]
  exact ⟨fun _ => TextParse.fields_ne_nil_of_head hhead, fun h => absurd hhead h⟩

/-! ### The lookups of a handler -/

section Lookups
variable {α : Type} (eventParser : TextParse) (key : Bytes)

theorem completes_get_bind (f : Bytes → Except Fault α) :
    Completes (eventParser.get key 1 >>= f) ↔
      TextParse.EveryLineKeyed key eventParser.m_data ∧
        Completes (f (TextParse.lookup key 1 eventParser.m_data)) :=
  completes_bind_iff (eventParser.get_eq_ok_iff key 1)

theorem completes_contain_bind (f : Bool → Except Fault α) :
    Completes (eventParser.contain key >>= f) ↔
      TextParse.EveryLineKeyed key eventParser.m_data ∧
        Completes (f (TextParse.lookup key 1 eventParser.m_data != [])) :=
  completes_bind_iff (eventParser.contain_eq_ok_iff key)

theorem completes_ite {c : Prop} [Decidable c] {m m' : Except Fault α} :
    Completes (if c then m else m') ↔ (c → Completes m) ∧ (¬ c → Completes m') := by
  by_cases hc : c
  · simp [hc]
  · simp [hc]

end Lookups

namespace TankInfo

/-- The lookups that decoding reaches pass only lines with a field, and the version that it
reaches converts. The name is looked up first. -/
structure Decodable (lines : List Bytes) : Prop where
  name : TextParse.EveryLineKeyed (ascii "requestedName") lines
  country : fits 16 (TextParse.lookup (ascii "requestedName") 1 lines) →
    TextParse.EveryLineKeyed (ascii "country") lines
  rid : fits 16 (TextParse.lookup (ascii "requestedName") 1 lines) →
    fits 3 (TextParse.lookup (ascii "country") 1 lines) →
    TextParse.EveryLineKeyed (ascii "rid") lines
  rest : Accepted lines → TextParse.EveryLineKeyed (ascii "game_version") lines ∧
    Converts (gameVersionText lines) ∧ TextParse.EveryLineKeyed (ascii "platformID") lines

theorem completes_storeField (parser : TextParse) (key : Bytes) (this : TankInfo) (limit : ℕ)
    (stored : Bytes → TankInfo) (next : TankInfo → Except Fault (Bool × TankInfo)) :
    Completes (storeField parser key (fun data => this.setBounded limit data (stored data)) next) ↔
      TextParse.EveryLineKeyed key parser.m_data ∧
        (fits limit (TextParse.lookup key 1 parser.m_data) →
          Completes (next (stored (TextParse.lookup key 1 parser.m_data)))) := by
  have hiff := storeField_eq_ok_iff parser key this limit stored next
  by_cases hfits : fits limit (TextParse.lookup key 1 parser.m_data)
  · simp only [if_pos hfits] at hiff
    simp only [Completes, hiff, hfits, true_implies, exists_and_left]
  · simp only [if_neg hfits] at hiff
    simp only [Completes, hiff, hfits, exists_and_left, exists_eq', and_true]
    tauto

theorem completes_decodePlatform (this : TankInfo) (parser : TextParse) :
    Completes (this.decodePlatform parser) ↔
      TextParse.EveryLineKeyed (ascii "game_version") parser.m_data ∧
        Converts (gameVersionText parser.m_data) ∧
        TextParse.EveryLineKeyed (ascii "platformID") parser.m_data := by
  constructor
  · intro h
    obtain ⟨⟨ok, det⟩, h⟩ := h
    obtain ⟨-, -, hversion, hplatform, hconverts, -⟩ := decodePlatform_ok h
    exact ⟨hversion, hconverts, hplatform⟩
  · intro h
    obtain ⟨hversion, hconverts, hplatform⟩ := h
    obtain ⟨bits, hbits⟩ := (stof_ok_iff _).mpr hconverts
    have hvalue (value : UInt32) :
        stof (gameVersionText parser.m_data) = .ok value ↔ True ∧ bits = value := by
      rw [hbits, Except.ok.injEq, true_and]
    refine (completes_get_bind parser _ _).mpr ⟨hversion, ?_⟩
    refine (completes_bind_iff hvalue).mpr ⟨trivial, ?_⟩
    refine (completes_get_bind parser _ _).mpr ⟨hplatform, ?_⟩
    split
    · exact Completes.ok _
    · exact Completes.ok _

theorem completes_serialize (this : TankInfo) (parser : TextParse) :
    Completes (this.serialize parser) ↔ Decodable parser.m_data := by
  rw [serialize_eq]
  refine (completes_storeField parser _ this 16 _ _).trans ?_
  refine Iff.trans (and_congr_right fun _ => imp_congr_right fun _ =>
    (completes_storeField parser _ _ 3 _ _).trans (and_congr_right fun _ =>
      imp_congr_right fun _ => (completes_storeField parser _ _ 32 _ _).trans
        (and_congr_right fun _ => imp_congr_right fun _ =>
          completes_decodePlatform _ parser))) ?_
  constructor
  · intro h
    obtain ⟨hname, h⟩ := h
    refine ⟨hname, fun hfits => (h hfits).1, fun hfits hcountry => ((h hfits).2 hcountry).1, ?_⟩
    intro haccepted
    exact ((h haccepted.1).2 haccepted.2.1).2 haccepted.2.2
  · intro h
    exact ⟨h.name, fun hfits => ⟨h.country hfits, fun hcountry =>
      ⟨h.rid hfits hcountry, fun hrid => h.rest ⟨hfits, hcountry, hrid⟩⟩⟩⟩

end TankInfo

/-! ### The backpack a registration finds -/

/-- What a player is created with, and what it holds once it has an account. -/
def starterItems : PlayerItems := (({} : PlayerItems).put itemFist 1).put itemWrench 1

def accountItems : PlayerItems := (starterItems.put itemMyFirstWorldLock 1).put itemPickaxe 1

/-- A player that holds the starter items has room for both items of an account and none of
them, so the item table is not looked at. -/
theorem applyGrowID_of_starterItems (globals : Globals) (name password : Bytes) {avatar : Avatar}
    (h : avatar.player.m_items = starterItems) :
    ∃ after, applyGrowID globals name password avatar = .ok after ∧
      after.player.m_items = accountItems := by
  have hcount : ¬ (1 : UInt8) < 1 := by decide
  have hlock : PlayerItems.addItem globals.items starterItems itemMyFirstWorldLock 1 =
      .ok (true, starterItems.put itemMyFirstWorldLock 1) :=
    PlayerItems.addItem_none hcount rfl
  have hpickaxe : PlayerItems.addItem globals.items
      (starterItems.put itemMyFirstWorldLock 1) itemPickaxe 1 = .ok (true, accountItems) :=
    PlayerItems.addItem_none hcount rfl
  unfold applyGrowID
  rw [h]
  exact ⟨_, bind_eq_ok.mpr ⟨_, hlock, bind_eq_ok.mpr ⟨_, hpickaxe, rfl⟩⟩, rfl⟩

/-! ### The handlers -/

def registrationKeys : List Bytes := [ascii "logon", ascii "password", ascii "verify_password"]

/-- The lookups of a text, along the way it is routed, pass only lines with a field, and a
game version that is reached converts. -/
structure Served (globals : Globals) (player : Player) (text : Bytes) : Prop where
  login : eventNameOf text = ascii "requestedName" →
    ¬ player.m_detail.isFlagOn clientFlagLoggedOn → TankInfo.Decodable (TextParse.textLines text)
  dialog : eventNameOf text = ascii "action" →
    TextParse.lookup (ascii "action") 1 (TextParse.textLines text) = ascii "dialog_return" →
    TextParse.EveryLineKeyed (ascii "dialog_name") (TextParse.textLines text)
  registration : IsGrowIDApply text → player.m_detail.m_tankIDName = [] →
    globals.playerTable ≠ none →
    ∀ key ∈ registrationKeys, TextParse.EveryLineKeyed key (TextParse.textLines text)

section Handlers
variable (globals : Globals) (eventParser : TextParse) (avatar : Avatar)

theorem completes_onDialogGrowIDApply
    (hitems : avatar.player.m_detail.m_tankIDName = [] → avatar.player.m_items = starterItems) :
    Completes (onDialogGrowIDApply globals eventParser avatar) ↔
      (avatar.player.m_detail.m_tankIDName = [] → globals.playerTable ≠ none →
        ∀ key ∈ registrationKeys, TextParse.EveryLineKeyed key eventParser.m_data) := by
  unfold onDialogGrowIDApply
  by_cases hname : avatar.player.m_detail.m_tankIDName = []
  swap
  · rw [if_pos (by rwa [List.isEmpty_iff])]
    exact iff_of_true (Completes.ok _) fun h => absurd h hname
  rw [if_neg (by simpa using hname)]
  cases htable : globals.playerTable with
  | none => exact iff_of_true (Completes.ok _) fun _ h => absurd rfl h
  | some pTable =>
    refine (completes_get_bind eventParser _ _).trans ?_
    refine (and_congr_right fun _ => (completes_get_bind eventParser _ _).trans
      (and_congr_right fun _ => completes_get_bind eventParser _ _)).trans ?_
    have hanswer (name password verifyPassword : Bytes) :
        Completes (if (pTable.registerPlayer name password verifyPassword).m_result ≠ .success then
          avatar.sendDialog .registration (TextParse.ofPairs (registrationEntries name password
            verifyPassword (pTable.registerPlayer name password verifyPassword).m_data))
        else applyGrowID globals name password avatar) := by
      refine completes_ite.mpr ⟨fun _ => ?_, fun _ => ?_⟩
      · obtain ⟨vList, hvList⟩ := PlayerDialog.send_ok .registration
          (registrationEntries_fillable name password verifyPassword
            (pTable.registerPlayer name password verifyPassword).m_data)
        exact ⟨_, bind_eq_ok.mpr ⟨vList, hvList, rfl⟩⟩
      · obtain ⟨after, hafter, -⟩ := applyGrowID_of_starterItems globals name password (hitems hname)
        exact ⟨after, hafter⟩
    simp only [hanswer, hname, registrationKeys]
    simp

/-- One layer of actions looks up the name of the next event, and then runs the event. -/
theorem completes_route {key keyName : Bytes} (hkey : keyName ≠ []) (eventFunction : EventFunction)
    (log : Bytes → Avatar) :
    Completes (do
      if ¬ (← eventParser.contain key) then return avatar
      else
        let eventName ← eventParser.get key 1
        match (AList.insert keyName eventFunction
          (∅ : AList fun _ : Bytes => EventFunction)).lookup eventName with
        | none => return log eventName
        | some eventFunction => eventFunction globals eventParser avatar) ↔
      TextParse.EveryLineKeyed key eventParser.m_data ∧
        (TextParse.lookup key 1 eventParser.m_data = keyName →
          Completes (eventFunction globals eventParser avatar)) := by
  refine (completes_contain_bind eventParser key _).trans (and_congr_right fun hkeyed => ?_)
  by_cases hempty : TextParse.lookup key 1 eventParser.m_data = []
  · rw [if_pos (by simp [hempty])]
    refine iff_of_true (Completes.ok _) fun heq => absurd (heq.symm.trans hempty) hkey
  · rw [if_neg (by simpa using hempty)]
    refine (completes_get_bind eventParser key _).trans ?_
    rw [and_iff_right hkeyed, lookup_insert_empty]
    by_cases heq : TextParse.lookup key 1 eventParser.m_data = keyName
    · simp only [if_pos heq]
      exact (imp_iff_right heq).symm
    · simp only [if_neg heq]
      exact iff_of_true (Completes.ok _) fun h => absurd h heq

theorem completes_onRequestedName :
    Completes (onRequestedName globals eventParser avatar) ↔
      (¬ avatar.player.m_detail.isFlagOn clientFlagLoggedOn →
        TankInfo.Decodable eventParser.m_data) := by
  unfold onRequestedName
  refine completes_ite.trans ?_
  rw [← TankInfo.completes_serialize avatar.player.m_detail eventParser]
  constructor
  · intro h hflag
    obtain ⟨after, hafter⟩ := h.2 hflag
    obtain ⟨result, hresult, -⟩ := bind_eq_ok.mp hafter
    exact ⟨result, hresult⟩
  · intro h
    refine ⟨fun _ => Completes.ok _, fun hflag => ?_⟩
    obtain ⟨⟨serialized, m_detail⟩, hserialize⟩ := h hflag
    obtain ⟨accepted, haccepted, -⟩ :=
      acceptName_ok { avatar with player := { avatar.player with m_detail } }
    cases serialized with
    | false => exact ⟨_, bind_eq_ok.mpr ⟨_, hserialize, rfl⟩⟩
    | true => exact ⟨accepted, bind_eq_ok.mpr ⟨_, hserialize, haccepted⟩⟩

end Handlers

/-- A text is handled to the end exactly when it is served: of a player that holds what it
was created with, nothing but a lookup or the game version can fail. -/
theorem completes_handleText (globals : Globals) (text : Bytes) (avatar : Avatar)
    (hitems : avatar.player.m_detail.m_tankIDName = [] → avatar.player.m_items = starterItems) :
    Completes (handleText globals text avatar) ↔ Served globals avatar.player text := by
  have hlines := TextParse.parse_m_data text
  unfold handleText
  simp only [lookup_textEvents]
  by_cases haction : eventNameOf text = ascii "action"
  · simp only [if_pos haction]
    have hkeyed := everyLineKeyed_eventNameOf haction (by decide) (by decide)
    have hother : ¬ eventNameOf text = ascii "requestedName" := fun hname =>
      absurd (haction.symm.trans hname) (by decide)
    refine (completes_route globals _ avatar (by decide) onDialogReturn _).trans ?_
    rw [hlines, and_iff_right hkeyed]
    refine (imp_congr_right fun _ => (completes_route globals _ avatar (by decide)
      onDialogGrowIDApply _).trans (and_congr_right fun _ => imp_congr_right fun _ =>
        completes_onDialogGrowIDApply globals _ avatar hitems)).trans ?_
    rw [hlines]
    constructor
    · intro h
      refine ⟨fun hname => absurd hname hother, fun _ hreturn => (h hreturn).1, ?_⟩
      intro hrouted
      exact (h hrouted.action).2 hrouted.dialog
    · intro h hreturn
      exact ⟨h.dialog haction hreturn, fun hdialog => h.registration ⟨haction, hreturn, hdialog⟩⟩
  · simp only [if_neg haction]
    have hunrouted : ¬ IsGrowIDApply text := fun hrouted => haction hrouted.event
    by_cases hname : eventNameOf text = ascii "requestedName"
    · simp only [if_pos hname]
      refine (completes_onRequestedName globals _ avatar).trans ?_
      rw [hlines]
      constructor
      · intro h
        exact ⟨fun _ => h, fun h => absurd h haction, fun h => absurd h hunrouted⟩
      · intro h
        exact h.login hname
    · simp only [if_neg hname]
      exact iff_of_true (Completes.ok _)
        ⟨fun h => absurd h hname, fun h => absurd h haction, fun h => absurd h hunrouted⟩

end GrowServer
