import Mathlib.Data.List.Induction

/-!
# Runs of a labelled transition system

A system is a relation `step s a s'`: from state `s` the label `a` can lead to `s'`.
A `Run` records the transitions taken from a start state, oldest first, so that both the
states reached and the history that led to them can be named.

## Key results

- `Run.invariant` / `Run.historyInvariant`: what one step preserves, every run preserves
- `Run.exists_split`: the run before any of its transitions
- `Run.Along`: a condition on every transition together with the history before it
- `Run.simulate`: what a forward simulation takes to steps, it takes to runs
- `Run.view_eq_foldl`: a view that is kept up to date by what is told of each step
- `Run.restrict`: a run whose transitions all satisfy a side condition
- `Run.forall_post_iff_of`, `Run.forall_post_iff`: a property holds in every state reached iff every
  step meets the condition that decides it; `Run.along_post_iff` if both depend on the history
- `Run.of_exec`, `Run.of_follow`, `Run.exists_of_foldlM`: an executable next-state function yields
  runs
-/

/-- One transition taken in a run. -/
structure Transition (σ : Type u) (α : Type v) where
  pre : σ
  label : α
  post : σ

variable {σ : Type u} {α : Type v} {β : Type w}

/-- `Run step s₀ tr s`: the transitions `tr`, oldest first, lead from `s₀` to `s`. -/
inductive Run (step : σ → α → σ → Prop) (s₀ : σ) : List (Transition σ α) → σ → Prop
  | nil : Run step s₀ [] s₀
  | snoc {tr s a s'} : Run step s₀ tr s → step s a s' → Run step s₀ (tr ++ [⟨s, a, s'⟩]) s'

namespace Run

variable {step : σ → α → σ → Prop} {s₀ s s' : σ} {a : α} {tr tr' : List (Transition σ α)}

/-- An invariant of state and history that every step extends holds at the end of a run. -/
theorem historyInvariant {I : List (Transition σ α) → σ → Prop} (h₀ : I [] s₀)
    (hstep : ∀ tr s a s', Run step s₀ tr s → I tr s → step s a s' → I (tr ++ [⟨s, a, s'⟩]) s')
    (h : Run step s₀ tr s) : I tr s := by
  induction h with
  | nil => exact h₀
  | snoc hrun hs ih => exact hstep _ _ _ _ hrun ih hs

/-- A state predicate that every step preserves holds at the end of a run. -/
theorem invariant {I : σ → Prop} (h₀ : I s₀) (hstep : ∀ s a s', I s → step s a s' → I s')
    (h : Run step s₀ tr s) : I s :=
  historyInvariant (I := fun _ s => I s) h₀ (fun _ s a s' _ hi hs => hstep s a s' hi hs) h

/-- A run may start one step earlier. -/
theorem cons (hs : step s₀ a s) (h : Run step s tr s') :
    Run step s₀ (⟨s₀, a, s⟩ :: tr) s' := by
  induction h with
  | nil => exact snoc nil hs
  | snoc _ hs' ih => exact snoc ih hs'

/-- Runs compose. -/
theorem append (h : Run step s₀ tr s) (h' : Run step s tr' s') : Run step s₀ (tr ++ tr') s' := by
  induction h' with
  | nil => rwa [List.append_nil]
  | snoc _ hs ih =>
    rw [← List.append_assoc]
    exact snoc ih hs

/-- A run ends where its last transition does, and the rest of it is a run. -/
theorem of_snoc {t : Transition σ α} (h : Run step s₀ (tr ++ [t]) s) :
    Run step s₀ tr t.pre ∧ step t.pre t.label t.post ∧ s = t.post := by
  generalize hl : tr ++ [t] = l at h
  cases h with
  | nil => simp at hl
  | snoc hrun hs =>
    obtain ⟨rfl, rfl⟩ := List.append_inj' hl rfl |>.imp id List.singleton_inj.mp
    exact ⟨hrun, hs, rfl⟩

/-- A run of two parts passes through the state between them. -/
theorem of_append (h : Run step s₀ (tr ++ tr') s) :
    ∃ s₁, Run step s₀ tr s₁ ∧ Run step s₁ tr' s := by
  induction tr' using List.reverseRecOn generalizing s with
  | nil => exact ⟨s, List.append_nil tr ▸ h, nil⟩
  | append_singleton tr' t ih =>
    rw [← List.append_assoc] at h
    obtain ⟨hrun, hs, rfl⟩ := of_snoc h
    obtain ⟨s₁, h₁, h₂⟩ := ih hrun
    exact ⟨s₁, h₁, snoc h₂ hs⟩

/-- A run up to, at and after one of its transitions. -/
theorem of_mid {t : Transition σ α} (h : Run step s₀ (tr ++ t :: tr') s) :
    Run step s₀ tr t.pre ∧ step t.pre t.label t.post ∧ Run step t.post tr' s := by
  rw [show tr ++ t :: tr' = (tr ++ [t]) ++ tr' by simp] at h
  obtain ⟨s₁, h₁, h₂⟩ := h.of_append
  obtain ⟨hrun, hs, rfl⟩ := of_snoc h₁
  exact ⟨hrun, hs, h₂⟩

/-- Every transition of a run starts where some run ends, namely the one before it. -/
theorem exists_split {t : Transition σ α} (h : Run step s₀ tr s) (ht : t ∈ tr) :
    ∃ tr₁ tr₂, tr = tr₁ ++ t :: tr₂ ∧ Run step s₀ tr₁ t.pre ∧ step t.pre t.label t.post := by
  induction h with
  | nil => cases ht
  | snoc hrun hs ih =>
    rcases List.mem_append.mp ht with ht | ht
    · obtain ⟨tr₁, tr₂, rfl, hrun', hs'⟩ := ih ht
      exact ⟨tr₁, tr₂ ++ [_], List.append_assoc _ _ _, hrun', hs'⟩
    · obtain rfl := List.mem_singleton.mp ht
      exact ⟨_, [], rfl, hrun, hs⟩

/-- `C` holds of every transition, taken with the history before it. -/
def Along (C : List (Transition σ α) → Transition σ α → Prop) (tr : List (Transition σ α)) :
    Prop :=
  ∀ tr₁ t tr₂, tr = tr₁ ++ t :: tr₂ → C tr₁ t

/-- A condition on the steps of a run, split at its last step. -/
theorem along_concat {C : List (Transition σ α) → Transition σ α → Prop} {t : Transition σ α} :
    Along C (tr ++ [t]) ↔ Along C tr ∧ C tr t := by
  constructor
  · intro h
    refine ⟨fun tr₁ t' tr₂ heq => h tr₁ t' (tr₂ ++ [t]) ?_, h tr t [] rfl⟩
    rw [heq, List.append_assoc, List.cons_append]
  · intro h tr₁ t' tr₂ heq
    obtain ⟨hall, hlast⟩ := h
    -- the transition is the last one or lies before it
    rcases List.eq_nil_or_concat tr₂ with rfl | ⟨tr₃, t₃, rfl⟩
    · obtain ⟨rfl, heq'⟩ := List.append_inj' heq rfl
      obtain rfl := List.singleton_inj.mp heq'
      exact hlast
    · rw [List.concat_eq_append, ← List.cons_append, ← List.append_assoc] at heq
      exact hall tr₁ t' tr₃ (List.append_inj' heq rfl).1

/-- What holds along a run holds along its beginnings. -/
theorem Along.of_append {C : List (Transition σ α) → Transition σ α → Prop}
    (h : Along C (tr ++ tr')) : Along C tr := by
  intro tr₁ t tr₂ heq
  exact h tr₁ t (tr₂ ++ tr') (by rw [heq, List.append_assoc, List.cons_append])

/-- What each transition of a run satisfies exactly when it satisfies something else. -/
theorem along_congr {C C' : List (Transition σ α) → Transition σ α → Prop}
    (h : Run step s₀ tr s)
    (hiff : ∀ tr t, Run step s₀ tr t.pre → step t.pre t.label t.post → (C tr t ↔ C' tr t)) :
    Along C tr ↔ Along C' tr := by
  have hmid : ∀ tr₁ t tr₂, tr = tr₁ ++ t :: tr₂ → (C tr₁ t ↔ C' tr₁ t) := by
    intro tr₁ t tr₂ heq
    obtain ⟨hpre, hs, -⟩ := (heq ▸ h).of_mid
    exact hiff tr₁ t hpre hs
  constructor
  · exact fun hC tr₁ t tr₂ heq => (hmid tr₁ t tr₂ heq).mp (hC tr₁ t tr₂ heq)
  · exact fun hC tr₁ t tr₂ heq => (hmid tr₁ t tr₂ heq).mpr (hC tr₁ t tr₂ heq)

/-- A run of a relation is a run of any relation that allows more. -/
theorem mono {step' : σ → α → σ → Prop} (himp : ∀ s a s', step s a s' → step' s a s')
    (h : Run step s₀ tr s) : Run step' s₀ tr s := by
  induction h with
  | nil => exact nil
  | snoc _ hs ih => exact snoc ih (himp _ _ _ hs)

/-- A run whose transitions all satisfy `C` is a run of the system restricted to `C`. -/
theorem restrict {C : Transition σ α → Prop} (h : Run step s₀ tr s) (hC : ∀ t ∈ tr, C t) :
    Run (fun s a s' => step s a s' ∧ C ⟨s, a, s'⟩) s₀ tr s := by
  induction h with
  | nil => exact nil
  | snoc _ hs ih =>
    exact snoc (ih fun t ht => hC t (List.mem_append_left _ ht)) ⟨hs, hC _ (by simp)⟩

/-- Forward simulation: if `f` takes every step from a state with `I` to a step of another
    system, it takes runs to runs. -/
theorem simulate {step' : τ → α → τ → Prop} {f : σ → τ} {I : σ → Prop} (h₀ : I s₀)
    (hstep : ∀ s a s', I s → step s a s' → I s' ∧ step' (f s) a (f s'))
    (h : Run step s₀ tr s) :
    I s ∧ Run step' (f s₀) (tr.map fun t => ⟨f t.pre, t.label, f t.post⟩) (f s) := by
  induction h with
  | nil => exact ⟨h₀, nil⟩
  | snoc _ hs ih =>
    obtain ⟨hI, hrun⟩ := ih
    obtain ⟨hI', hs'⟩ := hstep _ _ _ hI hs
    rw [List.map_append]
    exact ⟨hI', hrun.snoc hs'⟩

/-- Someone who is told of every step what changes can keep a view of the state up to date. -/
theorem view_eq_foldl (I : σ → Prop) (view : σ → γ) (told : α → List δ) (update : γ → δ → γ)
    (h₀ : I s₀) (hstep : ∀ s a s', I s → step s a s' →
      I s' ∧ view s' = (told a).foldl update (view s))
    (h : Run step s₀ tr s) :
    view s = (tr.flatMap fun t => told t.label).foldl update (view s₀) := by
  suffices hmain : I s ∧
      view s = (tr.flatMap fun t => told t.label).foldl update (view s₀) from hmain.2
  induction h with
  | nil => exact ⟨h₀, rfl⟩
  | snoc _ hs ih =>
    obtain ⟨hI, hview⟩ := ih
    obtain ⟨hI', hview'⟩ := hstep _ _ _ hI hs
    refine ⟨hI', ?_⟩
    rw [hview', hview, List.flatMap_append, List.foldl_append, List.flatMap_singleton]

/-- If, from a state with `P`, a step leads to `Q` exactly when it meets `C`, and then to `P`,
    then `Q` holds in every state a run reaches exactly when every step of the run meets `C`. -/
theorem forall_post_iff_of {P Q : σ → Prop} {C : σ → α → Prop} (h₀ : P s₀)
    (hstep : ∀ tr s a s', Run step s₀ tr s → P s → step s a s' →
      (Q s' ↔ C s a) ∧ (C s a → P s'))
    (h : Run step s₀ tr s) : (∀ t ∈ tr, Q t.post) ↔ ∀ t ∈ tr, C t.pre t.label := by
  -- the induction also needs `P` where the run stands, which the first part says of past states
  suffices hmain : ((∀ t ∈ tr, Q t.post) ↔ ∀ t ∈ tr, C t.pre t.label) ∧
      ((∀ t ∈ tr, Q t.post) → P s) from hmain.1
  induction h with
  | nil => simp [h₀]
  | snoc hrun hs ih =>
    obtain ⟨ihiff, ihlast⟩ := ih
    simp only [List.forall_mem_append, List.forall_mem_singleton]
    constructor
    · constructor
      · intro hx
        obtain ⟨hq, hq'⟩ := hx
        exact ⟨ihiff.mp hq, (hstep _ _ _ _ hrun (ihlast hq) hs).1.mp hq'⟩
      · intro hx
        obtain ⟨hc, hc'⟩ := hx
        have hq := ihiff.mpr hc
        exact ⟨hq, (hstep _ _ _ _ hrun (ihlast hq) hs).1.mpr hc'⟩
    · intro hx
      obtain ⟨hq, hq'⟩ := hx
      obtain ⟨hiff, hkeep⟩ := hstep _ _ _ _ hrun (ihlast hq) hs
      exact hkeep (hiff.mp hq')

/-- If, from a state with `P`, a step leads to `P` exactly when it meets `C`, then `P` holds
    in every state a run reaches exactly when every step of the run meets `C`. -/
theorem forall_post_iff {P : σ → Prop} {C : σ → α → Prop} (h₀ : P s₀)
    (hstep : ∀ tr s a s', Run step s₀ tr s → P s → step s a s' → (P s' ↔ C s a))
    (h : Run step s₀ tr s) :
    (∀ t ∈ tr, P t.post) ↔ ∀ t ∈ tr, C t.pre t.label := by
  apply forall_post_iff_of h₀ _ h
  intro tr s a s' hrun hp hs
  have hiff := hstep tr s a s' hrun hp hs
  exact ⟨hiff, hiff.mpr⟩

/-- `forall_post_iff` for what may depend on the history. -/
theorem along_post_iff {P : List (Transition σ α) → σ → Prop}
    {C : List (Transition σ α) → Transition σ α → Prop} (h₀ : P [] s₀)
    (hstep : ∀ tr s a s', Run step s₀ tr s → P tr s → step s a s' →
      (P (tr ++ [⟨s, a, s'⟩]) s' ↔ C tr ⟨s, a, s'⟩))
    (h : Run step s₀ tr s) : Along (fun tr t => P (tr ++ [t]) t.post) tr ↔ Along C tr := by
  suffices hmain : (Along (fun tr t => P (tr ++ [t]) t.post) tr ↔ Along C tr) ∧
      (Along (fun tr t => P (tr ++ [t]) t.post) tr → P tr s) from hmain.1
  induction h with
  | nil =>
    have hnil : ∀ D, Along (σ := σ) (α := α) D [] := by
      intro D tr₁ t tr₂ heq
      simp at heq
    exact ⟨iff_of_true (hnil _) (hnil _), fun _ => h₀⟩
  | snoc hrun hs ih =>
    obtain ⟨ihiff, ihlast⟩ := ih
    rw [along_concat, along_concat]
    refine ⟨?_, fun hp => hp.2⟩
    constructor
    · intro hx
      obtain ⟨hp, hp'⟩ := hx
      exact ⟨ihiff.mp hp, (hstep _ _ _ _ hrun (ihlast hp) hs).mp hp'⟩
    · intro hx
      -- the condition holds of every step, so `P` has been kept up to the last state
      obtain ⟨hc, hc'⟩ := hx
      have hp := ihiff.mpr hc
      exact ⟨hp, (hstep _ _ _ _ hrun (ihlast hp) hs).mpr hc'⟩

/-- The transitions an executable next-state function takes on a list of inputs. -/
def exec (next : σ → β → Option (α × σ)) : σ → List β → Option (List (Transition σ α) × σ)
  | s, [] => some ([], s)
  | s, b :: bs =>
    match next s b with
    | none => none
    | some (a, s') => (exec next s' bs).map fun r => (⟨s, a, s'⟩ :: r.1, r.2)

/-- What an executable relation computes is a run. -/
theorem of_exec {next : σ → β → Option (α × σ)}
    (hnext : ∀ s b a s', next s b = some (a, s') → step s a s') {bs : List β}
    (h : exec next s₀ bs = some (tr, s)) : Run step s₀ tr s := by
  induction bs generalizing s₀ tr with
  | nil =>
    simp only [exec, Option.some.injEq, Prod.mk.injEq] at h
    obtain ⟨rfl, rfl⟩ := h; exact nil
  | cons b bs ih =>
    simp only [exec] at h
    split at h
    · exact nomatch h
    · rename_i a s' hb
      simp only [Option.map_eq_some_iff, Prod.exists, Prod.mk.injEq] at h
      obtain ⟨tr', s'', h', rfl, rfl⟩ := h
      exact cons (hnext _ _ _ _ hb) (ih h')

/-- `exec` for a next-state function whose inputs are the labels themselves. -/
def follow (next : σ → α → Option σ) (s : σ) (as : List α) :
    Option (List (Transition σ α) × σ) :=
  exec (fun s a => (next s a).map fun s' => (a, s')) s as

/-- Following a list of actions gives a run. -/
theorem of_mem_follow {next : σ → α → Option σ} {s : σ} {as : List α}
    {r : List (Transition σ α) × σ} (h : r ∈ follow next s as) :
    Run (fun s a s' => next s a = some s') s r.1 r.2 := by
  refine of_exec (fun s a b s' hb => ?_) h
  simp only [Option.map_eq_some_iff, Prod.mk.injEq] at hb
  obtain ⟨_, hnext, rfl, rfl⟩ := hb
  exact hnext

/-- The run that a list of actions leads to. -/
theorem of_follow (next : σ → α → Option σ) (s : σ) (as : List α)
    (h : (follow next s as).isSome) :
    Run (fun s a s' => next s a = some s') s ((follow next s as).get h).1
      ((follow next s as).get h).2 :=
  of_mem_follow (Option.some_get h).symm

/-- Steps that can be taken one after the other make a run. -/
theorem exists_of_foldlM {next : σ → α → Option σ} {s s' : σ} {as : List α}
    (h : as.foldlM next s = some s') : ∃ tr, Run (fun s a s' => next s a = some s') s tr s' := by
  induction as generalizing s with
  | nil =>
    cases h
    exact ⟨[], nil⟩
  | cons a as ih =>
    rw [List.foldlM_cons, Option.bind_eq_bind, Option.bind_eq_some_iff] at h
    obtain ⟨s₁, hs, h⟩ := h
    obtain ⟨tr, hrun⟩ := ih h
    exact ⟨_, cons hs hrun⟩

end Run
