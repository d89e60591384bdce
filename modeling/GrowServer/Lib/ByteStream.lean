import GrowServer.Lib.LittleEndian
import Mathlib.Data.Vector.Basic

/-!
# Reading and writing a byte stream by position

A `Cursor` reads a fixed block of bytes, a `Sink` fills an allocated buffer; both
carry a position that every access advances, and an access that would leave the
block fails. The rules relate a program to the bytes it goes over:

* `Reads m bs a`: wherever the bytes ahead begin with `bs`, `m` reads exactly
  these and returns `a` (decoding what an encoder wrote);
* `Parses m P`: whatever `m` returns, the bytes it went over satisfy `P` (the
  decoder lost nothing);
* `Stable m`: more bytes behind the block do not change what `m` reads;
* `Writes w bs`: wherever the buffer has room, `w` writes exactly `bs`.

Each has one rule for `pure`, one for `bind` and one for each access, so a
program of any length is verified access by access.
-/

namespace ByteStream
open LittleEndian

/-! ### Reading -/

/-- A block of bytes and the position of the next access. -/
structure Cursor where
  data : Bytes
  position : ℕ
  deriving DecidableEq, Repr

/-- Programs that read; `none` is an access outside the block. -/
abbrev Reader := StateT Cursor Option

namespace Cursor

def rest (c : Cursor) : Bytes := c.data.drop c.position

def advance (c : Cursor) (n : ℕ) : Cursor := { c with position := c.position + n }

def extend (c : Cursor) (t : Bytes) : Cursor := { c with data := c.data ++ t }

@[simp] theorem advance_position (c : Cursor) (n : ℕ) :
    (c.advance n).position = c.position + n := rfl

theorem advance_advance (c : Cursor) (m n : ℕ) :
    (c.advance m).advance n = c.advance (m + n) := by
  simp only [advance, Nat.add_assoc]

theorem rest_advance (c : Cursor) (n : ℕ) : (c.advance n).rest = c.rest.drop n := by
  simp only [rest, advance, List.drop_drop]

theorem rest_advance_of_append {c : Cursor} {bs t : Bytes} (h : c.rest = bs ++ t) :
    (c.advance bs.length).rest = t := by
  rw [rest_advance, h, List.drop_left]

end Cursor

def takeBytes (n : ℕ) : Reader Bytes := fun c =>
  if n ≤ c.rest.length then some (c.rest.take n, c.advance n) else none

def readPod (α : Type) [Pod α] : Reader α := do
  let bs ← takeBytes (Pod.size α)
  return Pod.ofBytes bs

def readMany (α : Type) [Pod α] : (n : ℕ) → Reader (List.Vector α n)
  | 0 => return .nil
  | n + 1 => do
    let a ← readPod α
    let as ← readMany α n
    return as.cons a

def readCounted (α : Type) [Word α] : Reader Bytes := do
  let n ← readPod α
  takeBytes (Word.toNat n)

def counted (n : ℕ) (s : Bytes) : Bytes := leBytes n s.length ++ s

/-- `m` decodes `bs` to `a` and stops right behind it. -/
def Reads {α : Type} (m : Reader α) (bs : Bytes) (a : α) : Prop :=
  ∀ c t, c.rest = bs ++ t → m c = some (a, c.advance bs.length)

/-- Whatever `m` decodes, it read bytes that satisfy `P`. -/
def Parses {α : Type} (m : Reader α) (P : α → Bytes → Prop) : Prop :=
  ∀ c a c', m c = some (a, c') →
    ∃ bs, c' = c.advance bs.length ∧ c.rest = bs ++ c'.rest ∧ P a bs

/-- What `m` reads does not depend on the bytes behind the block. -/
def Stable {α : Type} (m : Reader α) : Prop :=
  ∀ c a c' t, m c = some (a, c') → m (c.extend t) = some (a, c'.extend t)

section Reading
variable {α β : Type}

theorem bind_eq_some {m : Reader α} {f : α → Reader β} {c c' : Cursor} {b : β} :
    (m >>= f) c = some (b, c') ↔ ∃ a d, m c = some (a, d) ∧ f a d = some (b, c') := by
  constructor
  · intro h
    obtain ⟨⟨a, d⟩, ha, hb⟩ := Option.bind_eq_some_iff.mp (h : (m c).bind _ = _)
    exact ⟨a, d, ha, hb⟩
  · intro h
    obtain ⟨a, d, ha, hb⟩ := h
    exact Option.bind_eq_some_iff.mpr ⟨(a, d), ha, hb⟩

theorem pure_eq_some {a b : α} {c c' : Cursor} :
    (pure a : Reader α) c = some (b, c') ↔ a = b ∧ c = c' := by
  show some (a, c) = some (b, c') ↔ _
  rw [Option.some_inj, Prod.mk.injEq]

theorem Reads.pure (a : α) : Reads (pure a : Reader α) [] a := fun _ _ _ => rfl

theorem Reads.bind {m : Reader α} {f : α → Reader β} {bs cs : Bytes} {a : α} {b : β}
    (hm : Reads m bs a) (hf : Reads (f a) cs b) : Reads (m >>= f) (bs ++ cs) b := by
  intro c t h
  have hfirst : m c = some (a, c.advance bs.length) := hm c (cs ++ t) (by rw [h, List.append_assoc])
  have hrest : (c.advance bs.length).rest = cs ++ t :=
    Cursor.rest_advance_of_append (by rw [h, List.append_assoc])
  have hsecond := hf _ t hrest
  show (m c).bind (fun p => f p.1 p.2) = _
  rw [hfirst, Option.bind_some, hsecond, Cursor.advance_advance, List.length_append]

theorem Reads.cons {m : Reader α} {f : α → Reader β} {bs : Bytes} {fields : List Bytes} {a : α}
    {b : β} (hm : Reads m bs a) (hf : Reads (f a) fields.flatten b) :
    Reads (m >>= f) (bs :: fields).flatten b := Reads.bind hm hf

theorem Reads.bind_pure {m : Reader α} {bs : Bytes} {a : α} (hm : Reads m bs a) (g : α → β) :
    Reads (m >>= fun x => Pure.pure (g x)) bs (g a) := by
  have h := Reads.bind (f := fun x => (Pure.pure (g x) : Reader β)) hm (Reads.pure (g a))
  rwa [List.append_nil] at h

theorem reads_takeBytes (bs : Bytes) (n : ℕ) (h : bs.length = n) : Reads (takeBytes n) bs bs := by
  intro c t hc
  subst h
  simp [takeBytes, hc]

theorem reads_readPod [Pod α] (a : α) : Reads (readPod α) (Pod.toBytes a) a := by
  have h := (reads_takeBytes (Pod.toBytes a) (Pod.size α) (Pod.length_toBytes a)).bind_pure
    (Pod.ofBytes (α := α))
  rwa [Pod.ofBytes_toBytes] at h

theorem reads_readMany [Pod α] {n : ℕ} (as : List.Vector α n) :
    Reads (readMany α n) (as.toList.flatMap Pod.toBytes) as := by
  induction n with
  | zero =>
    rw [as.eq_nil]
    exact Reads.pure _
  | succ n ih =>
    obtain ⟨a, as, rfl⟩ := as.exists_eq_cons
    rw [List.Vector.toList_cons, List.flatMap_cons]
    refine Reads.bind (reads_readPod a) ?_
    exact (ih as).bind_pure (List.Vector.cons a)

theorem reads_readCounted (α : Type) [Word α] (s : Bytes) (h : s.length < 256 ^ Word.width α) :
    Reads (readCounted α) (counted (Word.width α) s) s := by
  have hn : Word.toNat (Word.ofNat s.length : α) = s.length := Word.toNat_ofNat _ h
  have hword := reads_readPod (Word.ofNat s.length : α)
  rw [toBytes_word, hn] at hword
  exact Reads.bind hword (reads_takeBytes s _ hn.symm)

theorem Parses.pure {P : α → Bytes → Prop} {a : α} (h : P a []) : Parses (pure a) P := by
  intro c b c' hb
  obtain ⟨rfl, rfl⟩ := pure_eq_some.mp hb
  exact ⟨[], rfl, rfl, h⟩

theorem Parses.bind {m : Reader α} {f : α → Reader β} {Q : α → Bytes → Prop}
    {P : β → Bytes → Prop} (hm : Parses m Q)
    (hf : ∀ a bs, Q a bs → Parses (f a) (fun b cs => P b (bs ++ cs))) :
    Parses (m >>= f) P := by
  intro c b c' h
  obtain ⟨a, d, ha, hb⟩ := bind_eq_some.mp h
  obtain ⟨bs, hd, hrest, hQ⟩ := hm c a d ha
  obtain ⟨cs, hc', hrest', hP⟩ := hf a bs hQ d b c' hb
  refine ⟨bs ++ cs, ?_, ?_, hP⟩
  · rw [hc', hd, Cursor.advance_advance, List.length_append]
  · rw [hrest, hrest', List.append_assoc]

theorem Parses.weaken {m : Reader α} {P Q : α → Bytes → Prop} (hm : Parses m Q)
    (h : ∀ a bs, Q a bs → P a bs) : Parses m P := by
  intro c a c' hc
  obtain ⟨bs, hc', hrest, hQ⟩ := hm c a c' hc
  exact ⟨bs, hc', hrest, h a bs hQ⟩

theorem parses_takeBytes (n : ℕ) : Parses (takeBytes n) (fun a bs => a = bs ∧ bs.length = n) := by
  intro c a c' h
  simp only [takeBytes] at h
  split at h
  · rename_i hn
    obtain ⟨rfl, rfl⟩ : c.rest.take n = a ∧ c.advance n = c' := by
      simpa using Option.some.inj h
    have hlen : (c.rest.take n).length = n := by rw [List.length_take]; omega
    refine ⟨c.rest.take n, by rw [hlen], ?_, rfl, hlen⟩
    rw [Cursor.rest_advance, List.take_append_drop]
  · cases h

theorem parses_readPod [Pod α] : Parses (readPod α) (fun a bs => bs = Pod.toBytes a) := by
  refine Parses.bind (parses_takeBytes (Pod.size α)) ?_
  intro bs _ hread
  obtain ⟨rfl, hlen⟩ := hread
  refine Parses.pure ?_
  rw [List.append_nil, Pod.toBytes_ofBytes bs hlen]

theorem parses_readPod_bind [Pod α] {f : α → Reader β} {P : β → Bytes → Prop}
    (hf : ∀ a, Parses (f a) (fun b cs => P b (Pod.toBytes a ++ cs))) :
    Parses (readPod α >>= f) P :=
  Parses.bind parses_readPod (by rintro a _ rfl; exact hf a)

theorem parses_readMany [Pod α] (n : ℕ) :
    Parses (readMany α n) (fun as bs => bs = as.toList.flatMap Pod.toBytes) := by
  induction n with
  | zero => exact Parses.pure rfl
  | succ n ih =>
    refine parses_readPod_bind fun a => ?_
    refine Parses.bind ih ?_
    intro as _ heq
    subst heq
    refine Parses.pure ?_
    rw [List.append_nil, List.Vector.toList_cons, List.flatMap_cons]

theorem parses_readMany_bind [Pod α] {n : ℕ} {f : List.Vector α n → Reader β}
    {P : β → Bytes → Prop}
    (hf : ∀ as, Parses (f as) (fun b cs => P b (as.toList.flatMap Pod.toBytes ++ cs))) :
    Parses (readMany α n >>= f) P :=
  Parses.bind (parses_readMany n) (by rintro as _ rfl; exact hf as)

theorem parses_readCounted (α : Type) [Word α] :
    Parses (readCounted α)
      (fun s bs => bs = counted (Word.width α) s ∧ s.length < 256 ^ Word.width α) := by
  refine parses_readPod_bind fun n => ?_
  refine Parses.weaken (parses_takeBytes (Word.toNat n)) ?_
  intro s _ hread
  obtain ⟨rfl, hlen⟩ := hread
  rw [counted, hlen]
  exact ⟨rfl, Word.toNat_lt n⟩

theorem parses_readCounted_bind (α : Type) [Word α] {f : Bytes → Reader β}
    {P : β → Bytes → Prop}
    (hf : ∀ s, s.length < 256 ^ Word.width α →
      Parses (f s) (fun b cs => P b (counted (Word.width α) s ++ cs))) :
    Parses (readCounted α >>= f) P :=
  Parses.bind (parses_readCounted α) (by rintro s _ ⟨rfl, hs⟩; exact hf s hs)

theorem Stable.pure (a : α) : Stable (pure a : Reader α) := by
  intro c b c' t h
  obtain ⟨rfl, rfl⟩ := pure_eq_some.mp h
  rfl

theorem Stable.bind {m : Reader α} {f : α → Reader β} (hm : Stable m) (hf : ∀ a, Stable (f a)) :
    Stable (m >>= f) := by
  intro c b c' t h
  obtain ⟨a, d, ha, hb⟩ := bind_eq_some.mp h
  exact bind_eq_some.mpr ⟨a, d.extend t, hm c a d t ha, hf a d b c' t hb⟩

theorem stable_takeBytes (n : ℕ) : Stable (takeBytes n) := by
  intro c a c' t h
  have hrest : (c.extend t).rest = c.rest ++ t.drop (c.position - c.data.length) :=
    List.drop_append
  simp only [takeBytes] at h
  split at h
  · rename_i hn
    obtain ⟨rfl, rfl⟩ := Prod.mk.inj (Option.some.inj h)
    have hlong : n ≤ (c.extend t).rest.length := by
      rw [hrest, List.length_append]
      omega
    rw [takeBytes, if_pos hlong, hrest, List.take_append_of_le_length hn]
    rfl
  · cases h

theorem stable_readPod [Pod α] : Stable (readPod α) :=
  Stable.bind (stable_takeBytes _) fun _ => Stable.pure _

theorem stable_readCounted (α : Type) [Word α] : Stable (readCounted α) :=
  Stable.bind stable_readPod fun _ => stable_takeBytes _

theorem Parses.inside {m : Reader α} (hm : Parses m fun _ bs => bs ≠ []) {c c' : Cursor} {a : α}
    (h : m c = some (a, c')) : c'.data = c.data ∧ c'.position ≤ c'.data.length := by
  obtain ⟨bs, rfl, hrest, hne⟩ := hm c a c' h
  have hpos : 0 < bs.length := List.length_pos_iff.mpr hne
  have hlength := congrArg List.length hrest
  refine ⟨rfl, ?_⟩
  simp only [Cursor.rest, Cursor.advance, List.length_append, List.length_drop] at hlength ⊢
  omega

end Reading

/-! ### Writing -/

/-- An allocated buffer and the position of the next access. -/
structure Sink where
  buffer : Bytes
  position : ℕ
  deriving DecidableEq, Repr

/-- Programs that write; `none` is an access outside the buffer. -/
abbrev Writer := StateT Sink Option

namespace Sink

def put (s : Sink) (bs : Bytes) : Sink where
  buffer := s.buffer.take s.position ++ bs ++ s.buffer.drop (s.position + bs.length)
  position := s.position + bs.length

def Room (s : Sink) (n : ℕ) : Prop := s.position + n ≤ s.buffer.length

def written (s : Sink) : Bytes := s.buffer.take s.position

@[simp] theorem put_position (s : Sink) (bs : Bytes) :
    (s.put bs).position = s.position + bs.length := rfl

theorem put_length (s : Sink) (bs : Bytes) (h : s.Room bs.length) :
    (s.put bs).buffer.length = s.buffer.length := by
  simp only [put, List.length_append, List.length_take, List.length_drop, Room] at h ⊢
  omega

theorem put_nil (s : Sink) (h : s.position ≤ s.buffer.length) : s.put [] = s := by
  obtain ⟨buffer, position⟩ := s
  simp [put]

theorem put_put (s : Sink) (bs cs : Bytes) (h : s.Room (bs ++ cs).length) :
    (s.put bs).put cs = s.put (bs ++ cs) := by
  have hlen : s.position + bs.length + cs.length ≤ s.buffer.length := by
    simpa only [Room, List.length_append, Nat.add_assoc] using h
  have hpre : (s.buffer.take s.position ++ bs).length = s.position + bs.length := by
    rw [List.length_append, List.length_take]
    omega
  have htake : (s.buffer.take s.position ++ bs ++ s.buffer.drop (s.position + bs.length)).take
      (s.position + bs.length) = s.buffer.take s.position ++ bs := List.take_left' hpre
  have hdrop : (s.buffer.take s.position ++ bs ++ s.buffer.drop (s.position + bs.length)).drop
      (s.position + bs.length + cs.length) = s.buffer.drop (s.position + bs.length + cs.length) := by
    rw [← List.drop_drop, List.drop_left' hpre, List.drop_drop]
  simp only [put]
  rw [htake, hdrop]
  simp only [List.length_append, List.append_assoc, Nat.add_assoc]

theorem written_put (s : Sink) (bs : Bytes) (h : s.Room bs.length) :
    (s.put bs).written = s.written ++ bs := by
  have hlen : (s.buffer.take s.position ++ bs).length = s.position + bs.length := by
    simp only [Room] at h
    rw [List.length_append, List.length_take]
    omega
  simp only [written, put, List.take_left' hlen]

end Sink

def putBytes (bs : Bytes) : Writer Unit := fun s =>
  if s.position + bs.length ≤ s.buffer.length then some ((), s.put bs) else none

def writePod {α : Type} [Pod α] (a : α) : Writer Unit := putBytes (Pod.toBytes a)

def writeMany {α : Type} [Pod α] : List α → Writer Unit
  | [] => pure ()
  | a :: as => do
    writePod a
    writeMany as

def writeCounted (n : ℕ) (s : Bytes) : Writer Unit := do
  putBytes (leBytes n s.length)
  putBytes s

/-- `w` stores exactly `bs` wherever it fits. -/
def Writes (w : Writer Unit) (bs : Bytes) : Prop :=
  ∀ s : Sink, s.Room bs.length → w s = some ((), s.put bs)

/-- Where `w` succeeds, it went over `n` bytes that were there. -/
def Takes (w : Writer Unit) (n : ℕ) : Prop :=
  ∀ s t : Sink, w s = some ((), t) → s.position ≤ s.buffer.length →
    s.Room n ∧ t.buffer.length = s.buffer.length ∧ t.position = s.position + n

section Writing

theorem Writes.nil : Writes (pure ()) [] := fun s hs =>
  congrArg (fun t => some ((), t)) (s.put_nil (by simpa [Sink.Room] using hs)).symm

theorem Writes.bind {w : Writer Unit} {v : Unit → Writer Unit} {bs cs : Bytes}
    (hw : Writes w bs) (hv : Writes (v ()) cs) : Writes (w >>= v) (bs ++ cs) := by
  intro s hs
  have hs' : s.position + bs.length + cs.length ≤ s.buffer.length := by
    simpa only [Sink.Room, List.length_append, Nat.add_assoc] using hs
  have hfirst : s.Room bs.length := by unfold Sink.Room; omega
  have hsecond : (s.put bs).Room cs.length := by
    rw [Sink.Room, Sink.put_length s bs hfirst, Sink.put_position]
    exact hs'
  show (w s).bind (fun p => v p.1 p.2) = _
  rw [hw s hfirst, Option.bind_some, hv _ hsecond, Sink.put_put s bs cs hs]

theorem Writes.cons {w : Writer Unit} {v : Unit → Writer Unit} {bs : Bytes} {fields : List Bytes}
    (hw : Writes w bs) (hv : Writes (v ()) fields.flatten) :
    Writes (w >>= v) (bs :: fields).flatten := Writes.bind hw hv

theorem Writes.single {w : Writer Unit} {bs : Bytes} (hw : Writes w bs) :
    Writes w [bs].flatten := by
  rwa [List.flatten_cons, List.flatten_nil, List.append_nil]

theorem writes_putBytes (bs : Bytes) : Writes (putBytes bs) bs := by
  intro s hs
  exact if_pos hs

theorem writes_writePod {α : Type} [Pod α] (a : α) : Writes (writePod a) (Pod.toBytes a) :=
  writes_putBytes _

theorem writes_writeCounted (n : ℕ) (s : Bytes) : Writes (writeCounted n s) (counted n s) :=
  Writes.bind (writes_putBytes _) (writes_putBytes s)

theorem writes_writeMany {α : Type} [Pod α] (as : List α) :
    Writes (writeMany as) (as.flatMap Pod.toBytes) := by
  induction as with
  | nil => exact Writes.nil
  | cons a as ih =>
    rw [List.flatMap_cons]
    exact Writes.bind (writes_writePod a) ih

theorem takes_pure : Takes (pure ()) 0 := by
  intro s t h hs
  obtain ⟨-, rfl⟩ := Prod.mk.inj (Option.some.inj h)
  exact ⟨hs, rfl, rfl⟩

theorem Takes.bind {w : Writer Unit} {v : Unit → Writer Unit} {m n : ℕ} (hw : Takes w m)
    (hv : Takes (v ()) n) : Takes (w >>= v) (m + n) := by
  intro s t h hs
  obtain ⟨⟨_, u⟩, hu, ht⟩ := Option.bind_eq_some_iff.mp (h : (w s).bind _ = _)
  obtain ⟨hroom, hlength, hposition⟩ := hw s u hu hs
  unfold Sink.Room at hroom
  obtain ⟨hroom', hlength', hposition'⟩ := hv u t ht (by omega)
  unfold Sink.Room at hroom' ⊢
  omega

theorem takes_putBytes (bs : Bytes) : Takes (putBytes bs) bs.length := by
  intro s t h hs
  unfold putBytes at h
  split at h
  · rename_i hroom
    obtain ⟨-, rfl⟩ := Prod.mk.inj (Option.some.inj h)
    exact ⟨hroom, Sink.put_length s bs hroom, rfl⟩
  · cases h

end Writing

end ByteStream
