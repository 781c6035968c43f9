import Kgd.ForStd.Run
import Kgd.Daemon.SocketFile

/-!
# One daemon per socket path

A daemon that finds the path free while another is about to bind it, or about to leave, is a second
one, and so is one that removes as stale a socket that another has bound, whether that one listens
by then or not. In every other run there is one daemon at most.

## Key results

- `SocketFile.apart_iff`: a single daemon exactly if no check overlaps another's start or end
-/

namespace Kgd

namespace SocketFile

/-- The daemon is past its startup check and still runs. -/
def Past (p : DaemonPoint) : Prop :=
  p ∈ [.checked, .cleared, .bound, .serving, .unlinked, .closed, .leaving]

/-- The daemon is between its check and the `bind` of `net.Listen`, or has unlinked its socket. -/
def Between (p : DaemonPoint) : Prop := p ∈ [.checked, .cleared, .unlinked, .closed, .leaving]

/-- The daemon has made its socket, and not unlinked it. -/
def Bound (p : DaemonPoint) : Prop := p ∈ [.bound, .serving]

instance (p : DaemonPoint) : Decidable (Past p) :=
  inferInstanceAs (Decidable (p ∈ _))

instance (p : DaemonPoint) : Decidable (Between p) :=
  inferInstanceAs (Decidable (p ∈ _))

instance (p : DaemonPoint) : Decidable (Bound p) :=
  inferInstanceAs (Decidable (p ∈ _))

/-- At most one running daemon is past its startup check. -/
def AtMostOne (s : SocketFile) : Prop :=
  ∀ d d', Past (s.point d) → Past (s.point d') → d = d'

/-- The daemon that shuts down does not remove the socket on which another one listens. -/
def KeepsOthers (s : SocketFile) : Action → Prop
  | .unlink d | .removeOwn d =>
    ∀ d', s.entry = some (.socket d') → s.listening d' = true → d' = d
  | _ => True

/-- The check does not end well beside another daemon: it does not find the path free while another
    daemon is between its check and the `bind` of `net.Listen`, or between the `unlink` of its
    socket and its exit, and it does not remove a socket that a daemon has bound since. -/
def Apart (s : SocketFile) : Action → Prop
  | .stat _ => s.entry = none → ∀ d, ¬ Between (s.point d)
  | .removeStale _ => ∀ d, s.entry = some (.socket d) → ¬ Bound (s.point d)
  | _ => True

/-! ## The invariant -/

/-- The path is free around a daemon's start and end, and has its socket in between. -/
structure Owned (s : SocketFile) : Prop where
  atMostOne : s.AtMostOne
  free : ∀ d, Between (s.point d) → s.entry = none
  socket : ∀ d, Bound (s.point d) → s.entry = some (.socket d)

variable {s s' : SocketFile} {a : Action} {d d' : DaemonNo} {p : DaemonPoint}

/-- A daemon that starts or leaves is past its check. -/
theorem past_of_between (h : Between p) : Past p := by
  cases p <;> revert h <;> decide

/-- A daemon with a socket is past its check. -/
theorem past_of_bound (h : Bound p) : Past p := by
  cases p <;> revert h <;> decide

/-- A daemon past its check has a socket there, or the path is to be free. -/
theorem past_cases (h : Past p) : Between p ∨ Bound p := by
  cases p <;> revert h <;> decide

theorem owned_init (leftover : Bool) : Owned (init leftover) := by
  have hidle : ¬ Past .idle := by decide
  constructor
  · intro _ _ h
    exact absurd h hidle
  · intro _ h
    exact absurd (past_of_between h) hidle
  · intro _ h
    exact absurd (past_of_bound h) hidle

@[simp] theorem goTo_entry : (s.goTo d p).entry = s.entry := rfl

/-- A daemon that moves on is at the new point. -/
theorem goTo_self : (s.goTo d p).point d = p := Function.update_self ..

/-- A daemon that moves on leaves the others where they are. -/
theorem goTo_of_ne (h : d' ≠ d) : (s.goTo d p).point d' = s.point d' :=
  Function.update_of_ne h ..

/-- A daemon that is not past its check, and does not become so. -/
theorem Owned.stays_out (h : Owned s) (hp : ¬ Past p) : Owned (s.goTo d p) := by
  -- whoever is past the check was so before, and is another one
  have hne : ∀ d', Past ((s.goTo d p).point d') → d' ≠ d ∧ Past (s.point d') := by
    intro d' hd'
    by_cases heq : d' = d
    · rw [heq, goTo_self] at hd'
      exact absurd hd' hp
    · rw [goTo_of_ne heq] at hd'
      exact ⟨heq, hd'⟩
  constructor
  · intro d₁ d₂ h₁ h₂
    exact h.atMostOne d₁ d₂ (hne d₁ h₁).2 (hne d₂ h₂).2
  · intro d' hd'
    have hd := (hne d' (past_of_between hd')).1
    rw [goTo_of_ne hd] at hd'
    exact h.free d' hd'
  · intro d' hd'
    have hd := (hne d' (past_of_bound hd')).1
    rw [goTo_of_ne hd] at hd'
    exact h.socket d' hd'

/-- The only daemon past its check moves on: the path is free, or has its socket if it is bound. -/
theorem Owned.moves (hothers : ∀ d', d' ≠ d → ¬ Past (s.point d')) {entry : Option SocketEntry}
    (hfree : Between p → entry = none) (hsocket : Bound p → entry = some (.socket d)) :
    Owned ({ s with entry := entry }.goTo d p) := by
  -- nobody else is past the check
  have honly : ∀ d', Past (({ s with entry := entry }.goTo d p).point d') → d' = d := by
    intro d' hd'
    by_contra hne
    rw [goTo_of_ne hne] at hd'
    exact hothers d' hne hd'
  constructor
  · intro d₁ d₂ h₁ h₂
    rw [honly d₁ h₁, honly d₂ h₂]
  · intro d' hd'
    obtain rfl := honly d' (past_of_between hd')
    rw [goTo_self] at hd'
    exact hfree hd'
  · intro d' hd'
    obtain rfl := honly d' (past_of_bound hd')
    rw [goTo_self] at hd'
    exact hsocket hd'

/-- Beside a daemon past its check there is no other. -/
theorem Owned.others (h : Owned s) (hd : Past (s.point d)) :
    ∀ d', d' ≠ d → ¬ Past (s.point d') :=
  fun d' hne hd' => hne (h.atMostOne d' d hd' hd)

/-! ## Steps -/

/-- What a step needs and does, for the steps that do not end a check. -/
theorem point_of_step (h : Step s a s') :
    match a with
    | .stat d => s.point d = .idle
    | .dial d => s.point d = .found
    | .removeStale d => s.point d = .dead
    | .fail d | .removeOld d => s.point d = .checked
    | .bind d => s.point d = .cleared
    | .listen d => s.point d = .bound
    | .unlink d => s.point d = .serving
    | .close d => s.point d = .unlinked
    | .removeOwn d => s.point d = .closed
    | .exit d => s.point d = .leaving
    | .crash _ => True := by
  cases a with
  | crash d => trivial
  | _ => exact (Option.ite_none_right_eq_some.mp h).1

/-- Steps keep the invariant, if no check ends well beside another daemon. -/
theorem Owned.step (h : Owned s) (hs : Step s a s') (hapart : s.Apart a) : Owned s' := by
  have hpoint := point_of_step hs
  cases a with
  | stat d =>
    rw [Step, next, if_pos hpoint] at hs
    cases hentry : s.entry with
    | none =>
      rw [hentry] at hs
      obtain rfl := Option.some.inj hs
      -- nobody is bound without an entry
      have hothers : ∀ d', d' ≠ d → ¬ Past (s.point d') := by
        intro d' _ hd'
        cases past_cases hd' with
        | inl hbetween => exact hapart hentry d' hbetween
        | inr hbound =>
          rw [h.socket d' hbound] at hentry
          exact nomatch hentry
      exact Owned.moves hothers (fun _ => hentry) fun hb => absurd hb (by decide)
    | some e =>
      rw [hentry] at hs
      obtain rfl := Option.some.inj hs
      exact h.stays_out (by decide)
  | dial d =>
    rw [Step, next, if_pos hpoint] at hs
    obtain rfl := Option.some.inj hs
    apply h.stays_out
    split <;> decide
  | removeStale d =>
    rw [Step, next, if_pos hpoint] at hs
    cases hentry : s.entry with
    | none =>
      rw [hentry] at hs
      obtain rfl := Option.some.inj hs
      exact h.stays_out (by decide)
    | some e =>
      rw [hentry] at hs
      obtain rfl := Option.some.inj hs
      -- what is removed is in nobody's use
      have hothers : ∀ d', d' ≠ d → ¬ Past (s.point d') := by
        intro d' _ hd'
        cases past_cases hd' with
        | inl hbetween =>
          rw [h.free d' hbetween] at hentry
          exact nomatch hentry
        | inr hbound => exact hapart d' (h.socket d' hbound) hbound
      exact Owned.moves hothers (fun _ => rfl) fun hb => absurd hb (by decide)
  | fail d =>
    rw [Step, next, if_pos hpoint] at hs
    obtain rfl := Option.some.inj hs
    have hentry := h.free d (by rw [hpoint]; decide)
    exact Owned.moves (h.others (by rw [hpoint]; decide)) (fun _ => hentry)
      fun hb => absurd hb (by decide)
  | removeOld d =>
    rw [Step, next, if_pos hpoint] at hs
    obtain rfl := Option.some.inj hs
    exact Owned.moves (h.others (by rw [hpoint]; decide)) (fun _ => rfl)
      fun hb => absurd hb (by decide)
  | bind d =>
    -- the path is still as `removeOld` has left it
    have hentry := h.free d (by rw [hpoint]; decide)
    rw [Step, next, if_pos hpoint, hentry] at hs
    obtain rfl := Option.some.inj hs
    exact Owned.moves (h.others (by rw [hpoint]; decide)) (fun hb => absurd hb (by decide))
      fun _ => rfl
  | listen d =>
    rw [Step, next, if_pos hpoint] at hs
    obtain rfl := Option.some.inj hs
    have hentry := h.socket d (by rw [hpoint]; decide)
    exact Owned.moves (h.others (by rw [hpoint]; decide)) (fun hb => absurd hb (by decide))
      fun _ => hentry
  | unlink d =>
    rw [Step, next, if_pos hpoint] at hs
    obtain rfl := Option.some.inj hs
    exact Owned.moves (h.others (by rw [hpoint]; decide)) (fun _ => rfl)
      fun hb => absurd hb (by decide)
  | close d =>
    rw [Step, next, if_pos hpoint] at hs
    obtain rfl := Option.some.inj hs
    have hentry := h.free d (by rw [hpoint]; decide)
    exact Owned.moves (h.others (by rw [hpoint]; decide)) (fun _ => hentry)
      fun hb => absurd hb (by decide)
  | removeOwn d =>
    rw [Step, next, if_pos hpoint] at hs
    obtain rfl := Option.some.inj hs
    exact Owned.moves (h.others (by rw [hpoint]; decide)) (fun _ => rfl)
      fun hb => absurd hb (by decide)
  | exit d =>
    rw [Step, next, if_pos hpoint] at hs
    obtain rfl := Option.some.inj hs
    exact h.stays_out (by decide)
  | crash d =>
    rw [Step, next] at hs
    split at hs
    · exact nomatch hs
    · obtain rfl := Option.some.inj hs
      exact h.stays_out (by decide)

/-- The owner of the path alone removes what is there. -/
theorem Owned.keepsOthers (h : Owned s) (hs : Step s a s') : s.KeepsOthers a := by
  -- who is listening is past the check, and so is who removes
  have hpast : ∀ d', s.listening d' = true → Past (s.point d') := by
    intro d' hd'
    rw [listening, Bool.or_eq_true, beq_iff_eq, beq_iff_eq] at hd'
    rcases hd' with hd' | hd' <;> rw [hd'] <;> decide
  have hpoint := point_of_step hs
  cases a with
  | unlink d | removeOwn d =>
    intro d' _ hd'
    exact h.atMostOne d' d (hpast d' hd') (by rw [hpoint]; decide)
  | _ => trivial

/-- A check that ends well beside another daemon makes a second one. -/
theorem apart_of_atMostOne (hs : Step s a s') (h : s'.AtMostOne) : s.Apart a := by
  have hpoint := point_of_step hs
  cases a with
  | stat d =>
    -- another daemon between its bind and its listen would make two past the check
    intro hentry d' hd'
    rw [Step, next, if_pos hpoint, hentry] at hs
    obtain rfl := Option.some.inj hs
    have hne : d' ≠ d := by
      rintro rfl
      rw [hpoint] at hd'
      exact absurd hd' (by decide)
    exact hne (h d' d (by rw [goTo_of_ne hne]; exact past_of_between hd')
      (by rw [goTo_self]; decide))
  | removeStale d =>
    -- the socket this daemon removes is bound by nobody else
    intro d' hentry hd'
    rw [Step, next, if_pos hpoint, hentry] at hs
    obtain rfl := Option.some.inj hs
    have hne : d' ≠ d := by
      rintro rfl
      rw [hpoint] at hd'
      exact absurd hd' (by decide)
    exact hne (h d' d (by rw [goTo_of_ne hne]; exact past_of_bound hd')
      (by rw [goTo_self]; decide))
  | _ => trivial

/-! ## Runs -/

/-- In a run of any number of daemons there is at most one past its startup check, and no shutdown
    removes another's socket, exactly if no check ends well beside another daemon. -/
theorem apart_iff {leftover : Bool} {tr : List (Transition SocketFile Action)}
    (h : Run Step (init leftover) tr s) :
    (∀ x ∈ tr, x.post.AtMostOne ∧ x.pre.KeepsOthers x.label) ↔ ∀ x ∈ tr, x.pre.Apart x.label := by
  constructor
  · intro hall x hx
    obtain ⟨_, _, _, _, hs⟩ := h.exists_split hx
    exact apart_of_atMostOne hs (hall x hx).1
  · intro hapart x hx
    obtain ⟨tr₁, tr₂, heq, hrun, hs⟩ := h.exists_split hx
    -- the invariant holds before this step, as the condition did at every one until then
    have hbefore : ∀ t ∈ tr₁, t.pre.Apart t.label := by
      intro t ht
      exact hapart t (heq ▸ List.mem_append_left _ ht)
    have howned : Owned x.pre :=
      (hrun.restrict (C := fun t => t.pre.Apart t.label) hbefore).invariant (owned_init leftover)
        fun _ _ _ hi hs => hi.step hs.1 hs.2
    exact ⟨(howned.step hs (hapart x hx)).atMostOne, howned.keepsOthers hs⟩

/-- A daemon takes over a socket that was left over; a second one finds it answering. -/
def takeOver : List Action :=
  [.stat 0, .dial 0, .removeStale 0, .removeOld 0, .bind 0, .listen 0, .stat 1, .dial 1]

/-- Of two daemons on a path with a leftover socket the first one serves and the second one
    exits.     -/
theorem apart_iff_takeOver :
    ∃ tr s, Run Step (init true) tr s ∧ s.point 0 = .serving ∧ s.point 1 = .exited ∧
      ∀ x ∈ tr, x.post.AtMostOne ∧ x.pre.KeepsOthers x.label := by
  -- the first takes a leftover file over, the second finds it serving and exits
  have htakeOver : ∃ run ∈ Run.follow next (init true) takeOver,
      run.2.point 0 = .serving ∧ run.2.point 1 = .exited ∧
      ∀ x ∈ run.1, (match x.label with
        | .stat _ => x.pre.entry.isSome
        | .removeStale _ => x.pre.entry == some .leftover
        | _ => true) = true := by decide
  obtain ⟨run, hrun, h0, h1, hcalm⟩ := htakeOver
  refine ⟨_, _, Run.of_mem_follow hrun, h0, h1, (apart_iff (Run.of_mem_follow hrun)).mpr ?_⟩
  intro x hx
  have hx' := hcalm x hx
  cases hlabel : x.label with
  | stat d =>
    intro hentry
    rw [hlabel, hentry] at hx'
    exact nomatch hx'
  | removeStale d =>
    intro d' hentry
    rw [hlabel, hentry] at hx'
    exact absurd hx' (by simp)
  | _ => trivial

/-- Two daemons start at once, and the second one removes the socket of the first. -/
def startTwice : List Action :=
  [.stat 0, .stat 1, .removeOld 0, .bind 0, .listen 0, .removeOld 1, .bind 1, .listen 1]

/-- A daemon starts while another one shuts down, which then removes the socket of the first. -/
def restart : List Action :=
  [.stat 0, .removeOld 0, .bind 0, .listen 0, .unlink 0, .close 0, .stat 1, .removeOld 1, .bind 1,
    .listen 1, .removeOwn 0]

/-- Both parts of the property fail in some run. -/
theorem apart_fails :
    ¬ (∀ tr s, Run Step (init false) tr s → ∀ x ∈ tr, x.post.AtMostOne) ∧
    ¬ (∀ tr s, Run Step (init false) tr s → ∀ x ∈ tr, x.pre.KeepsOthers x.label) := by
  constructor
  · intro h
    -- both find the path free, and both go on
    have hstart : ∃ run ∈ Run.follow next (init false) startTwice,
        ∃ x ∈ run.1, x.post.point 0 = .serving ∧ x.post.point 1 = .serving := by decide
    obtain ⟨run, hrun, x, hx, h0, h1⟩ := hstart
    have heq := h _ _ (Run.of_mem_follow hrun) x hx 0 1 (by rw [h0]; decide) (by rw [h1]; decide)
    exact absurd heq (by decide)
  · intro h
    -- the first closes while the second is listening at the path
    have hrestart : ∃ run ∈ Run.follow next (init false) restart,
        ∃ x ∈ run.1, x.label = .removeOwn 0 ∧ x.pre.entry = some (.socket 1) ∧
          x.pre.listening 1 = true := by decide
    obtain ⟨run, hrun, x, hx, hlabel, hentry, hlistening⟩ := hrestart
    have hkeeps := h _ _ (Run.of_mem_follow hrun) x hx
    rw [hlabel] at hkeeps
    exact absurd (hkeeps 1 hentry hlistening) (by decide)

end SocketFile

end Kgd
