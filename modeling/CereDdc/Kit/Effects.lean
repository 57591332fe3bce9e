import CereDdc.Kit.Program
import CereDdc.Kit.Retry

/-!
# Kit — Effects

What programs do to a view of their environment. An effect relates the view before,
the outcome and the view after; updates that may be made again without a
difference can be lost on the way and made again.
-/

namespace Kit

/-! ## Updates -/

section

variable {τ : Type*} {f : τ → τ} {fs gs : List (τ → τ)} {v : τ}

/-- The updates, one after the other. -/
def applyAll (fs : List (τ → τ)) (v : τ) : τ := fs.foldl (fun v f => f v) v

@[simp] theorem applyAll_nil : applyAll [] v = v := rfl

@[simp] theorem applyAll_cons : applyAll (f :: fs) v = applyAll fs (f v) := rfl

theorem applyAll_append : applyAll (fs ++ gs) v = applyAll gs (applyAll fs v) :=
  List.foldl_append

/-- Updates that may be made again, and in any order. -/
structure Replayable (fs : List (τ → τ)) : Prop where
  again : ∀ f ∈ fs, ∀ v, f (f v) = f v
  swap : ∀ f ∈ fs, ∀ g ∈ fs, ∀ v, f (g v) = g (f v)

theorem Replayable.mono (h : Replayable fs) (hsub : gs ⊆ fs) : Replayable gs :=
  ⟨fun f hf => h.again f (hsub hf), fun f hf g hg => h.swap f (hsub hf) g (hsub hg)⟩

theorem Replayable.applyAll_swap (h : Replayable (f :: fs)) :
    f (applyAll fs v) = applyAll fs (f v) := by
  induction fs generalizing v with
  | nil => rfl
  | cons g fs ih =>
    have hrest : Replayable (f :: fs) := h.mono (by simp [List.cons_subset])
    rw [applyAll_cons, applyAll_cons, ih hrest, h.swap f (by simp) g (by simp)]

/-- An update that was made makes no difference. -/
theorem Replayable.absorb (h : Replayable fs) (hf : f ∈ fs) :
    f (applyAll fs v) = applyAll fs v := by
  have hswap : Replayable (f :: fs) := h.mono (List.cons_subset.mpr ⟨hf, fun _ h => h⟩)
  rw [hswap.applyAll_swap]
  induction fs generalizing v with
  | nil => cases hf
  | cons g fs ih =>
    rw [applyAll_cons, applyAll_cons]
    rcases List.mem_cons.mp hf with rfl | hf
    · rw [h.again f List.mem_cons_self]
    · rw [h.swap g List.mem_cons_self f (List.mem_cons_of_mem g hf)]
      exact ih (h.mono (List.subset_cons_self g fs)) hf
        (hswap.mono (List.cons_subset_cons f (List.subset_cons_self g fs)))

theorem Replayable.absorbAll (h : Replayable fs) (hsub : gs ⊆ fs) :
    applyAll gs (applyAll fs v) = applyAll fs v := by
  induction gs with
  | nil => rfl
  | cons g gs ih =>
    obtain ⟨hg, hsub⟩ := List.cons_subset.mp hsub
    rw [applyAll_cons, h.absorb hg, ih hsub]

/-- Some first updates after some first updates are the first ones up to the later of the two. -/
theorem Replayable.replay (h : Replayable fs) (i j : Nat) :
    applyAll (fs.take i) (applyAll (fs.take j) v) = applyAll (fs.take (max i j)) v := by
  have hfirst : ∀ k, Replayable (fs.take k) := fun k => h.mono (List.take_subset k fs)
  rcases Nat.le_total i j with hij | hji
  · rw [Nat.max_eq_right hij, (hfirst j).absorbAll (List.take_subset_take_left fs hij)]
  · have hsplit : fs.take i = fs.take j ++ (fs.take i).drop j := by
      conv => lhs; rw [← List.take_append_drop j (fs.take i), List.take_take, Nat.min_eq_left hji]
    rw [Nat.max_eq_left hji, hsplit, applyAll_append,
      (hfirst j).absorbAll (fun _ h => h), applyAll_append]

end

/-! ## Effects -/

namespace Program

variable {ρ : Type} {answer : ρ → Type} {ε α β σ τ : Type} {env : Environment answer σ}
  {view : σ → τ} {p : Program answer ε α} {f : α → Program answer ε β}

/-- In every state the program has an outcome and leaves a view as the effect says. -/
def Does (env : Environment answer σ) (view : σ → τ) (p : Program answer ε α)
    (E : τ → Except ε α → τ → Prop) : Prop :=
  ∀ s, E (view s) (run env p s).1 (view (run env p s).2)

variable {E : τ → Except ε α → τ → Prop} {F : α → τ → Except ε β → τ → Prop}
  {W : τ → Except ε β → τ → Prop}

theorem Does.bind (hp : Does env view p E) (hf : ∀ a, Does env view (f a) (F a))
    (herror : ∀ v e w, E v (.error e) w → W v (.error e) w)
    (hok : ∀ v a u x w, E v (.ok a) u → F a u x w → W v x w) :
    Does env view (p >>= f) W := by
  intro s
  have hfirst := hp s
  cases hrun : run env p s with
  | mk x t =>
    rw [hrun] at hfirst
    cases x with
    | error e =>
      rw [run_bind_error hrun]
      exact herror _ e _ hfirst
    | ok a =>
      rw [run_bind_ok hrun]
      exact hok _ a _ _ _ hfirst (hf a t)

/-- Requests that the view does not show. -/
theorem Meets.does {P : ρ → Prop} {Q : α → Prop} (hp : p.Meets P Q)
    (hkeep : ∀ s r, P r → view (env s r).2 = view s) : Does env view p fun v _ w => w = v := by
  intro s
  induction p generalizing s with
  | done a => rfl
  | fail e => rfl
  | ask r next ih => exact (ih _ (hp.2 _) _).trans (hkeep s r hp.1)

/-- Some first updates are made; if the program succeeds, all of them, and `Q` holds of what it
succeeds with. -/
def Makes (updates : List (τ → τ)) (Q : α → Prop) (v : τ) (x : Except ε α) (w : τ) : Prop :=
  ∃ k, w = applyAll (updates.take k) v ∧ ∀ a, x = .ok a → updates.length ≤ k ∧ Q a

variable {us us' : List (τ → τ)} {Q : α → Prop} {Q' : β → Prop} {v w : τ} {x : Except ε α}

theorem Makes.complete {a : α} (h : Makes us Q v (.ok a : Except ε α) w) :
    w = applyAll us v ∧ Q a := by
  obtain ⟨k, rfl, hok⟩ := h
  obtain ⟨hk, ha⟩ := hok a rfl
  exact ⟨by rw [List.take_of_length_le hk], ha⟩

theorem does_done {a : α} (ha : Q a) :
    Does env view (done a : Program answer ε α) (Makes [] Q) :=
  fun _ => ⟨0, rfl, fun _ hb => ⟨Nat.le_refl 0, Except.ok.inj hb ▸ ha⟩⟩

theorem does_fail {e : ε} : Does env view (fail e : Program answer ε α) (Makes us Q) :=
  fun _ => ⟨0, rfl, nofun⟩

theorem Meets.makes {P : ρ → Prop} (hp : p.Meets P Q)
    (hkeep : ∀ s r, P r → view (env s r).2 = view s) : Does env view p (Makes [] Q) := by
  intro s
  refine ⟨0, hp.does hkeep s, fun a ha => ⟨Nat.le_refl 0, ?_⟩⟩
  exact hp.result (Prod.ext ha rfl)

/-- The updates of a program are those of its parts. -/
theorem Does.append (hp : Does env view p (Makes us Q))
    (hf : ∀ a, Q a → Does env view (f a) (Makes us' Q')) :
    Does env view (p >>= f) (Makes (us ++ us') Q') := by
  refine hp.bind (F := fun a u x w => Q a → Makes us' Q' u x w)
    (fun a s ha => hf a ha s) ?_ ?_
  · rintro v e w ⟨k, rfl, -⟩
    refine ⟨min k us.length, ?_, nofun⟩
    rw [List.take_append_of_le_length (Nat.min_le_right k us.length), ← List.take_eq_take_min]
  · intro v a u x w hfirst hlater
    obtain ⟨rfl, ha⟩ := hfirst.complete
    obtain ⟨k, rfl, hok⟩ := hlater ha
    refine ⟨us.length + k, ?_, fun b hb => ?_⟩
    · rw [List.take_length_add_append, applyAll_append]
    · rw [List.length_append]
      exact ⟨Nat.add_le_add_left (hok b hb).1 us.length, (hok b hb).2⟩

theorem Does.map {g : α → β} (hp : Does env view p (Makes us Q)) (hg : ∀ a, Q a → Q' (g a)) :
    Does env view (p >>= fun a => pure (g a)) (Makes us Q') := by
  have hlast : ∀ a, Q a → Does env view (done (g a) : Program answer ε β) (Makes [] Q') :=
    fun a ha => does_done (hg a ha)
  have happend := hp.append hlast
  rwa [List.append_nil] at happend

/-- A first part that makes no updates. -/
theorem Does.after {P : ρ → Prop} (hp : p.Meets P Q)
    (hkeep : ∀ s r, P r → view (env s r).2 = view s)
    (hf : ∀ a, Q a → Does env view (f a) (Makes us Q')) :
    Does env view (p >>= f) (Makes us Q') :=
  (hp.makes hkeep).append hf

/-- What is made again makes no difference to what was made. -/
theorem Makes.again (hus : Replayable us) {c : τ} (h : Makes us Q v x w)
    (hv : ∃ k, v = applyAll (us.take k) c) :
    (∃ k, w = applyAll (us.take k) c) ∧ ∀ a, x = .ok a → w = applyAll us c ∧ Q a := by
  obtain ⟨j, rfl⟩ := hv
  obtain ⟨k, rfl, hok⟩ := h
  rw [hus.replay]
  refine ⟨⟨_, rfl⟩, fun a ha => ?_⟩
  obtain ⟨hk, hQ⟩ := hok a ha
  exact ⟨by rw [List.take_of_length_le (Nat.le_trans hk (Nat.le_max_left k j))], hQ⟩

end Program

/-! ## Attempts -/

section

variable {ε α β σ : Type*} {grants : Nat → Bool} {mainError : List ε → ε → ε}
  {body : Nat → β → σ → Attempt ε α × σ} {n : Nat} {errors : List ε} {bs : List β} {s : σ}

/-- What every attempt keeps, and what an attempt that resolves leaves. -/
theorem retry_leaves {I : σ → Prop} {Q : α → σ → Prop}
    (hbody : ∀ n b s, b ∈ bs → I s → I (body n b s).2 ∧
      ∀ a, (body n b s).1 = .resolved a → Q a (body n b s).2) (hs : I s) :
    I (retry grants mainError body n errors bs s).2 ∧
      ∀ a, (retry grants mainError body n errors bs s).1 = .resolved a →
        Q a (retry grants mainError body n errors bs s).2 := by
  induction bs generalizing n errors s with
  | nil => exact ⟨hs, nofun⟩
  | cons b bs ih =>
    obtain ⟨hnext, hresolved⟩ := hbody n b s List.mem_cons_self hs
    cases hb : body n b s with
    | mk r u =>
      rw [hb] at hnext hresolved
      cases r with
      | resolved a =>
        rw [retry_resolved hb]
        refine ⟨hnext, fun a' ha => ?_⟩
        cases ha
        exact hresolved a rfl
      | bailed e =>
        rw [retry_bailed hb]
        exact ⟨hnext, nofun⟩
      | failed e =>
        rw [retry_failed hb]
        split
        · exact ih (fun n b s hmem => hbody n b s (List.mem_cons_of_mem _ hmem)) hnext
        · exact ⟨hnext, nofun⟩

end

end Kit
