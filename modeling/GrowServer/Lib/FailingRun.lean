import GrowServer.Lib.Run

/-!
# Runs of a step that can fail

A failure ends the run: what a run reaches is a state or the first failure, which no
later action changes. `Reached I` says that the state that is reached, if there is
one, satisfies `I`, and `OnState P` that a step predicate holds of it.
-/

namespace RunLogic

variable {ε σ α β : Type*}

def untilFailure (f : σ → α → Except ε σ) (s : Except ε σ) (a : α) : Except ε σ :=
  match s with
  | .error e => .error e
  | .ok t => f t a

def Reached (I : σ → Prop) (s : Except ε σ) : Prop := ∀ t, s = .ok t → I t

def OnState (P : σ → α → Prop) (s : Except ε σ) (a : α) : Prop := ∀ t, s = .ok t → P t a

def Succeeds (f : σ → α → Except ε σ) (s : σ) (a : α) : Prop := ∃ t, f s a = .ok t

section Invariant
variable {f : σ → α → Except ε σ} {I : σ → Prop} {C G : σ → α → Prop}

theorem reached_untilFailure {s : Except ε σ} {a : α} (h : Reached I s)
    (hstep : ∀ t t', s = .ok t → I t → f t a = .ok t' → I t') :
    Reached I (untilFailure f s a) := by
  intro t' ht'
  cases s with
  | error e => cases ht'
  | ok t => exact hstep t t' rfl (h t rfl) ht'

theorem reached_exec {s : Except ε σ} (as : List α) (h0 : Reached I s)
    (hstep : ∀ t a t', I t → f t a = .ok t' → I t') : Reached I (exec (untilFailure f) s as) := by
  induction as generalizing s with
  | nil => exact h0
  | cons a as ih => exact ih (reached_untilFailure h0 fun t t' _ => hstep t a t')

/-- The exact condition for a run, from the one for the steps of the states it
reaches. -/
theorem along_onState_iff {s : σ} (as : List α) (h0 : I s)
    (hstep : ∀ t a t', I t → C t a → f t a = .ok t' → I t')
    (hiff : ∀ t a, I t → (G t a ↔ C t a)) :
    Along (untilFailure f) (OnState G) (.ok s) as ↔
      Along (untilFailure f) (OnState C) (.ok s) as := by
  refine along_iff (I := Reached I) ?_ ?_ ?_ (along_true _ _)
  · intro t ht
    rwa [← Except.ok.inj ht]
  · intro s a hs _ hC
    exact reached_untilFailure hs fun t t' ht hI => hstep t a t' hI (hC t ht)
  · intro s a hs _
    exact forall_congr' fun t => imp_congr_right fun ht => hiff t a (hs t ht)

theorem exec_error (e : ε) (as : List α) : exec (untilFailure f) (.error e) as = .error e := by
  induction as with
  | nil => rfl
  | cons a as ih => exact ih

theorem exec_cons_eq_ok {s t : σ} {a : α} {as : List α} :
    exec (untilFailure f) (.ok s) (a :: as) = .ok t ↔
      ∃ u, f s a = .ok u ∧ exec (untilFailure f) (.ok u) as = .ok t := by
  show exec (untilFailure f) (f s a) as = .ok t ↔ _
  cases hstep : f s a with
  | error e =>
    rw [exec_error]
    refine iff_of_false ?_ ?_
    · intro h
      cases h
    · intro h
      obtain ⟨u, hu, -⟩ := h
      cases hu
  | ok u =>
    constructor
    · intro h
      exact ⟨u, rfl, h⟩
    · intro h
      obtain ⟨u', hu', h⟩ := h
      rwa [Except.ok.inj hu']

/-- A run ends in a state exactly when no step of it fails. -/
theorem exec_ok_iff {s : σ} (as : List α) :
    (∃ t, exec (untilFailure f) (.ok s) as = .ok t) ↔
      Along (untilFailure f) (OnState (Succeeds f)) (.ok s) as := by
  induction as generalizing s with
  | nil => exact iff_of_true ⟨s, rfl⟩ trivial
  | cons a as ih =>
    rw [along_cons]
    constructor
    · intro h
      obtain ⟨t, ht⟩ := h
      obtain ⟨u, hu, hrest⟩ := exec_cons_eq_ok.mp ht
      have hnext : untilFailure f (.ok s) a = .ok u := hu
      refine ⟨fun s' hs' => ⟨u, Except.ok.inj hs' ▸ hu⟩, ?_⟩
      rw [hnext]
      exact ih.mp ⟨t, hrest⟩
    · intro h
      obtain ⟨hfirst, hrest⟩ := h
      obtain ⟨u, hu⟩ := hfirst s rfl
      have hnext : untilFailure f (.ok s) a = .ok u := hu
      rw [hnext] at hrest
      obtain ⟨t, ht⟩ := ih.mpr hrest
      exact ⟨t, exec_cons_eq_ok.mpr ⟨u, hu, ht⟩⟩

/-- Where the states reached satisfy an invariant under which a step succeeds exactly on
the condition, so does the run. -/
theorem exec_ok_iff_along {s : σ} (as : List α) (h0 : I s)
    (hstep : ∀ t a t', I t → f t a = .ok t' → I t')
    (hiff : ∀ t a, I t → (Succeeds f t a ↔ C t a)) :
    (∃ t, exec (untilFailure f) (.ok s) as = .ok t) ↔
      Along (untilFailure f) (OnState C) (.ok s) as :=
  (exec_ok_iff as).trans
    (along_onState_iff as h0 (fun t a t' hI _ hstep' => hstep t a t' hI hstep') hiff)

/-- What the steps of a run put out, up to the first failure. -/
def outputs (f : σ → α → Except ε σ) (out : σ → α → List β) : σ → List α → List β
  | _, [] => []
  | s, a :: as =>
    out s a ++
      match f s a with
      | .error _ => []
      | .ok t => outputs f out t as

theorem outputs_cons_ok {out : σ → α → List β} {s t : σ} {a : α} {as : List α}
    (h : f s a = .ok t) : outputs f out s (a :: as) = out s a ++ outputs f out t as := by
  rw [outputs, h]

theorem exists_of_mem_outputs {out : σ → α → List β} {b : β} {s : σ} {as : List α}
    (h : b ∈ outputs f out s as) : ∃ t a, b ∈ out t a := by
  induction as generalizing s with
  | nil => cases h
  | cons a as ih =>
    rw [outputs] at h
    rcases List.mem_append.mp h with hfirst | hrest
    · exact ⟨s, a, hfirst⟩
    · split at hrest
      · cases hrest
      · exact ih hrest

/-- An invariant that relates the state with what was put out so far. -/
theorem exec_outputs {out : σ → α → List β} {J : List β → σ → Prop} {done : List β} {s t : σ}
    {as : List α} (h0 : J done s)
    (hstep : ∀ done s a t, J done s → f s a = .ok t → J (done ++ out s a) t)
    (hrun : exec (untilFailure f) (.ok s) as = .ok t) : J (done ++ outputs f out s as) t := by
  induction as generalizing done s with
  | nil =>
    rw [outputs, List.append_nil]
    exact Except.ok.inj hrun ▸ h0
  | cons a as ih =>
    obtain ⟨u, hu, hrest⟩ := exec_cons_eq_ok.mp hrun
    rw [outputs_cons_ok hu, ← List.append_assoc]
    exact ih (hstep done s a u h0 hu) hrest

/-! ### A cell that is filled once -/

/-- A step that finds the cell empty fills it with what it writes; a full one it leaves. -/
def FillsOnce (f : σ → α → Except ε σ) (cell : σ → Option β) (writes : σ → α → β → Prop) : Prop :=
  ∀ s a t, f s a = .ok t → ∀ b, cell t = some b ↔ cell s = some b ∨ cell s = none ∧ writes s a b

section Cell
variable {cell : σ → Option β} {writes : σ → α → β → Prop} {s t : σ} {as : List α}

/-- After a run the cell holds what the first step that wrote to it wrote, and nothing else. -/
theorem FillsOnce.exec_iff (h : FillsOnce f cell writes)
    (hrun : exec (untilFailure f) (.ok s) as = .ok t) (b : β) :
    cell t = some b ↔ cell s = some b ∨ ∃ before a after u, as = before ++ a :: after ∧
      exec (untilFailure f) (.ok s) before = .ok u ∧ cell u = none ∧ writes u a b := by
  induction as generalizing s with
  | nil =>
    rw [Except.ok.inj hrun]
    refine ⟨Or.inl, ?_⟩
    intro hb
    rcases hb with hb | ⟨before, a, after, u, hsplit, -⟩
    · exact hb
    · exact absurd hsplit.symm
        (List.append_ne_nil_of_right_ne_nil before (List.cons_ne_nil a after))
  | cons a as ih =>
    obtain ⟨u, hu, hrest⟩ := exec_cons_eq_ok.mp hrun
    rw [ih hrest, h s a u hu b]
    constructor
    · intro hb
      rcases hb with (hb | ⟨hnone, hwrites⟩) | ⟨before, c, after, v, rfl, hbefore, hv, hwrites⟩
      · exact Or.inl hb
      · exact Or.inr ⟨[], a, as, s, rfl, rfl, hnone, hwrites⟩
      · exact Or.inr ⟨a :: before, c, after, v, rfl, exec_cons_eq_ok.mpr ⟨u, hu, hbefore⟩, hv,
          hwrites⟩
    · intro hb
      rcases hb with hb | ⟨before, c, after, v, hsplit, hbefore, hv, hwrites⟩
      · exact Or.inl (Or.inl hb)
      cases before with
      | nil =>
        obtain ⟨rfl, rfl⟩ := List.cons.inj hsplit
        obtain rfl := Except.ok.inj hbefore
        exact Or.inl (Or.inr ⟨hv, hwrites⟩)
      | cons d before =>
        obtain ⟨rfl, rfl⟩ := List.cons.inj hsplit
        obtain ⟨u', hu', hbefore⟩ := exec_cons_eq_ok.mp hbefore
        obtain rfl := Except.ok.inj (hu.symm.trans hu')
        exact Or.inr ⟨before, c, after, v, rfl, hbefore, hv, hwrites⟩

end Cell

end Invariant

end RunLogic
