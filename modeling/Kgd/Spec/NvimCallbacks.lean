import Kgd.Client.Nvim
import Kgd.ForStd.List
import Kgd.ForStd.Run

/-!
# Callbacks of the neovim client

A callback waits in the pending table until it is fired: called, or scheduled to be called. The
table is emptied by responses and by `close_pipe`, which fire what they take out, and by
`M.disconnect`, which does not.

## Key results

- `NvimClient.WF.step`: what is in the table has not been fired, and nothing is fired twice
- `NvimClient.fired_once_iff`: over all runs
-/

namespace Kgd

namespace NvimClient

variable {K V : Type}

/-- The callbacks in the pending table. -/
def State.waiting (s : State K V) : List Nat := s.pending.entries.map Sigma.snd

/-- No callback is fired twice; and when the client is not connected each has been fired. -/
def FiredOnce (s : State K V) : Prop :=
  (∀ log ∈ s.callbacks, log.length ≤ 1) ∧
    (s.connected = false → ∀ log ∈ s.callbacks, log.length = 1)

/-- `M.disconnect` finds no callback in the table. -/
def NothingPending (s : State K V) : Action K V → Prop
  | .disconnect => s.pending = ∅
  | _ => True

variable [DecidableEq K]

/-- What is in the table has not been fired, and is there once. -/
structure WF (s : State K V) : Prop where
  unfired : ∀ k cb, s.pending.lookup k = some cb → s.callbacks[cb]? = some []
  nodup : s.waiting.Nodup
  once : ∀ log ∈ s.callbacks, log.length ≤ 1
  idle : s.connected = false → s.pending = ∅
  fresh : ∀ n : Nat, s.nextID < n → .int n ∉ s.pending

/-- What has not been fired is in the table. -/
def Accounted (s : State K V) : Prop := ∀ cb, s.callbacks[cb]? = some [] → cb ∈ s.waiting

variable {s s' : State K V} {a : Action K V} {k : Key K} {cb : Nat} {reply : Reply V}
  {tr : List (Transition (State K V) (Action K V))}

/-- Who waits has an entry in the table. -/
theorem mem_waiting_iff : cb ∈ s.waiting ↔ ∃ k, s.pending.lookup k = some cb := by
  rw [State.waiting, List.mem_map]
  constructor
  · intro h
    obtain ⟨e, he, rfl⟩ := h
    exact ⟨e.1, AList.mem_lookup_iff.mpr he⟩
  · intro h
    obtain ⟨k, hk⟩ := h
    exact ⟨⟨k, cb⟩, AList.mem_lookup_iff.mp hk, rfl⟩

/-- When an entry is taken the others wait on. -/
theorem waiting_erase_sublist (s : State K V) (k : Key K) :
    ((s.pending.erase k).entries.map Sigma.snd).Sublist s.waiting :=
  (List.kerase_sublist k s.pending.entries).map Sigma.snd

/-- A callback is in the table under one key. -/
theorem WF.key_unique {k' : Key K} (h : WF s) (hk : s.pending.lookup k = some cb)
    (hk' : s.pending.lookup k' = some cb) : k = k' := by
  have heq := List.inj_on_of_nodup_map h.nodup (AList.mem_lookup_iff.mp hk)
    (AList.mem_lookup_iff.mp hk') rfl
  exact congrArg Sigma.fst heq

/-- What is found after an entry was taken is another one. -/
theorem lookup_of_erase {k' : Key K} (h : (s.pending.erase k).lookup k' = some cb) :
    k' ≠ k ∧ s.pending.lookup k' = some cb := by
  by_cases hk : k' = k
  · subst hk
    rw [AList.lookup_erase] at h
    exact nomatch h
  · rw [AList.lookup_erase_ne hk] at h
    exact ⟨hk, h⟩

/-! ## The table -/

theorem WF.new : WF (.new : State K V) where
  unfired _ _ h := nomatch h
  nodup := List.nodup_nil
  once _ h := nomatch h
  idle _ := rfl
  fresh _ _ := AList.notMem_empty _

/-- A step that leaves the table and the callbacks alone, and the client connected. -/
theorem WF.congr (h : WF s) (hpending : s'.pending = s.pending)
    (hcallbacks : s'.callbacks = s.callbacks) (hid : s.nextID ≤ s'.nextID)
    (hconnected : s'.connected = false → s.connected = false) : WF s' where
  unfired := by rw [hpending, hcallbacks]; exact h.unfired
  nodup := by rw [State.waiting, hpending]; exact h.nodup
  once := by rw [hcallbacks]; exact h.once
  idle hs := by rw [hpending]; exact h.idle (hconnected hs)
  fresh n hn := by rw [hpending]; exact h.fresh n (Nat.lt_of_le_of_lt hid hn)

theorem WF.erase (h : WF s) (k : Key K) : WF { s with pending := s.pending.erase k } where
  unfired k' cb hk' := h.unfired k' cb (lookup_of_erase hk').2
  nodup := h.nodup.sublist (waiting_erase_sublist s k)
  once := h.once
  idle hs := by
    have hnone : s.pending = ∅ := h.idle hs
    rw [hnone]
    rfl
  fresh n hn hmem := h.fresh n hn (AList.mem_erase.mp hmem).2

/-- A request gets a new callback, which has not fired. -/
theorem WF.sendRequest (h : WF s) (callback : Bool) : WF (s.sendRequest callback) := by
  unfold State.sendRequest
  split
  · split
    · refine ⟨fun k cb hk => List.getElem?_concat_of_some _ (h.unfired k cb hk), h.nodup, ?_,
        h.idle, h.fresh⟩
      intro log hlog
      rcases List.mem_append.mp hlog with hold | hnew
      · exact h.once log hold
      · rw [List.mem_singleton.mp hnew]
        exact Nat.le_refl 1
    · exact h
  · rename_i hconnected
    have hconnected' : s.connected = true := by
      cases hc : s.connected with
      | true => rfl
      | false => simp [hc] at hconnected
    dsimp only
    split
    · refine ⟨fun k cb hk => ?_, ?_, ?_, fun hs => absurd (hconnected'.symm.trans hs) nofun,
        fun n hn hmem => ?_⟩
      · by_cases hkey : k = .int (s.nextID + 1 : Nat)
        · subst hkey
          rw [AList.lookup_insert] at hk
          obtain rfl := Option.some.inj hk
          exact List.getElem?_concat_length
        · rw [AList.lookup_insert_ne hkey] at hk
          exact List.getElem?_concat_of_some _ (h.unfired k cb hk)
      · show ((s.pending.insert _ _).entries.map Sigma.snd).Nodup
        rw [AList.entries_insert, List.map_cons, List.nodup_cons]
        refine ⟨fun hmem => ?_, h.nodup.sublist (waiting_erase_sublist s _)⟩
        -- the callbacks in the table have smaller numbers
        obtain ⟨k, hk⟩ := mem_waiting_iff.mp ((waiting_erase_sublist s _).mem hmem)
        exact List.ne_length_of_getElem? (h.unfired k _ hk) rfl
      · intro log hlog
        rcases List.mem_append.mp hlog with hold | hnew
        · exact h.once log hold
        · rw [List.mem_singleton.mp hnew]
          exact Nat.zero_le 1
      · have hn' : s.nextID + 1 < n := hn
        rcases (AList.mem_insert _).mp hmem with heq | hold
        · have hint : (n : Int) = (s.nextID + 1 : Nat) := Key.int.inj heq
          omega
        · exact h.fresh n (by omega) hold
    · exact (h.erase _).congr rfl rfl (Nat.le_succ _) id

/-- A callback that is taken out of the table is fired. -/
theorem WF.fire (h : WF s) (hk : s.pending.lookup k = some cb) (reply : Reply V) :
    WF ({ s with pending := s.pending.erase k }.fire cb reply) := by
  have hwf := h.erase k
  refine ⟨fun k' cb' hk' => ?_, hwf.nodup, fun log hlog => ?_, hwf.idle, hwf.fresh⟩
  · obtain ⟨hne, hold⟩ := lookup_of_erase hk'
    -- one callback waits under one ID, so no other entry names the fired one
    have hcb : cb ≠ cb' := by
      rintro rfl
      exact hne (h.key_unique hold hk)
    show (s.callbacks.modify cb (· ++ [reply]))[cb']? = some []
    rw [List.getElem?_modify_ne _ _ hcb]
    exact h.unfired k' cb' hold
  · obtain ⟨i, hi⟩ := List.getElem?_of_mem hlog
    have hi' : (s.callbacks.modify cb (· ++ [reply]))[i]? = some log := hi
    by_cases hcb : cb = i
    · subst hcb
      rw [List.getElem?_modify_eq, h.unfired k cb hk] at hi'
      obtain rfl := Option.some.inj hi'
      exact Nat.le_refl 1
    · rw [List.getElem?_modify_ne _ _ hcb] at hi'
      exact h.once log (List.mem_of_getElem? hi')

/-- A response fires the callback of its own entry only. -/
theorem WF.response (h : WF s) (msgid : Key K) (err result : Option V) :
    WF (s.response msgid err result) := by
  unfold State.response
  dsimp only
  split
  · rename_i hcb
    split
    · exact h.fire hcb _
    · exact h.fire hcb _
  · exact h.erase msgid

/-- `close_pipe` fires what is in the table. -/
theorem callbacks_closePipe (h : WF s) (cb : Nat) :
    s.closePipe.callbacks[cb]? = s.callbacks[cb]?.map fun log =>
      if cb ∈ s.waiting then log ++ [.connectionLost] else log :=
  List.getElem?_foldl_modify _ _ h.nodup _ _

/-- Closing the pipe leaves nobody waiting. -/
theorem WF.closePipe (h : WF s) : WF s.closePipe where
  unfired _ _ hk := nomatch hk
  nodup := List.nodup_nil
  once log hlog := by
    obtain ⟨i, hi⟩ := List.getElem?_of_mem hlog
    rw [callbacks_closePipe h, Option.map_eq_some_iff] at hi
    obtain ⟨log', hlog', rfl⟩ := hi
    split
    · rename_i hmem
      obtain ⟨k, hk⟩ := mem_waiting_iff.mp hmem
      rw [h.unfired k i hk] at hlog'
      obtain rfl := Option.some.inj hlog'
      exact Nat.le_refl 1
    · exact h.once log' (List.mem_of_getElem? hlog')
  idle _ := rfl
  fresh _ _ := AList.notMem_empty _

theorem WF.step (h : WF s) (hs : Step s a s') : WF s' := by
  subst hs
  cases a with
  | setup =>
    show WF s.setup
    unfold State.setup
    split
    · exact h
    · exact h.congr rfl rfl (Nat.le_refl _) id
  | connect => exact h.congr rfl rfl (Nat.le_refl _) nofun
  | connectError => exact h.congr rfl rfl (Nat.le_refl _) id
  | sendRequest callback => exact h.sendRequest callback
  | response msgid err result => exact h.response msgid err result
  | closePipe => exact h.closePipe
  -- the table is dropped as it is; only `Accounted` minds
  | disconnect =>
    exact ⟨fun _ _ hk => (nomatch hk), List.nodup_nil, h.once, fun _ => rfl,
      fun _ _ => AList.notMem_empty _⟩

theorem wf_of_run (h : Run Step .new tr s) : WF s := h.invariant .new fun _ _ _ => WF.step

/-! ## Callbacks that are dropped -/

/-- Where every callback has fired or waits, each has fired once when nobody waits. -/
theorem Accounted.firedOnce (h : Accounted s) (hwf : WF s) : FiredOnce s := by
  refine ⟨hwf.once, fun hidle log hlog => ?_⟩
  obtain ⟨i, hi⟩ := List.getElem?_of_mem hlog
  have hlength := hwf.once log hlog
  -- a callback that was never fired would still be in the table
  have hne : log.length ≠ 0 := by
    intro hzero
    rw [List.eq_nil_of_length_eq_zero hzero] at hi
    have hmem := h i hi
    rw [State.waiting, hwf.idle hidle] at hmem
    exact nomatch hmem
  omega

/-- A request adds a callback that waits, or fails it at once. -/
theorem Accounted.sendRequest (h : Accounted s) (hwf : WF s) (callback : Bool) :
    Accounted (s.sendRequest callback) := by
  -- the counter only grows, so nobody waits under the ID it hands out
  have hfresh : ∀ {k cb}, s.pending.lookup k = some cb → k ≠ .int (s.nextID + 1 : Nat) := by
    rintro k cb hk rfl
    exact hwf.fresh _ (Nat.lt_succ_self _) (AList.lookup_isSome.mp (by rw [hk]; rfl))
  unfold State.sendRequest
  split
  · split
    · intro cb hcb
      rcases List.getElem?_concat_eq_some.mp hcb with hold | ⟨-, hnew⟩
      · exact h cb hold
      · exact nomatch hnew
    · exact h
  · dsimp only
    split
    · intro cb hcb
      apply mem_waiting_iff.mpr
      rcases List.getElem?_concat_eq_some.mp hcb with hold | ⟨rfl, -⟩
      · obtain ⟨k, hk⟩ := mem_waiting_iff.mp (h cb hold)
        exact ⟨k, (AList.lookup_insert_ne (hfresh hk)).trans hk⟩
      · exact ⟨_, AList.lookup_insert _⟩
    · intro cb hcb
      obtain ⟨k, hk⟩ := mem_waiting_iff.mp (h cb hcb)
      exact mem_waiting_iff.mpr ⟨k, (AList.lookup_erase_ne (hfresh hk)).trans hk⟩

/-- What is fired need not be in the table. -/
theorem Accounted.fire (h : Accounted s) (hk : s.pending.lookup k = some cb) (reply : Reply V) :
    Accounted ({ s with pending := s.pending.erase k }.fire cb reply) := by
  intro cb' hcb'
  have hlog : (s.callbacks.modify cb (· ++ [reply]))[cb']? = some [] := hcb'
  by_cases hcb : cb = cb'
  · subst hcb
    rw [List.getElem?_modify_eq, Option.map_eq_map, Option.map_eq_some_iff] at hlog
    obtain ⟨log, -, hnil⟩ := hlog
    exact absurd (congrArg List.length hnil) (by simp)
  · rw [List.getElem?_modify_ne _ _ hcb] at hlog
    obtain ⟨k', hk'⟩ := mem_waiting_iff.mp (h cb' hlog)
    -- the entry that was taken out is the fired callback's
    have hne : k' ≠ k := by
      rintro rfl
      exact hcb (Option.some.inj (hk.symm.trans hk'))
    exact mem_waiting_iff.mpr ⟨k', (AList.lookup_erase_ne hne).trans hk'⟩

/-- A response fires a callback that waited. -/
theorem Accounted.response (h : Accounted s) (msgid : Key K) (err result : Option V) :
    Accounted (s.response msgid err result) := by
  unfold State.response
  dsimp only
  split
  · rename_i hcb
    split
    · exact h.fire hcb _
    · exact h.fire hcb _
  · rename_i hnone
    intro cb hcb
    obtain ⟨k, hk⟩ := mem_waiting_iff.mp (h cb hcb)
    -- nobody waits under this ID, so no entry is lost
    have hne : k ≠ msgid := by
      rintro rfl
      exact nomatch hnone.symm.trans hk
    exact mem_waiting_iff.mpr ⟨k, (AList.lookup_erase_ne hne).trans hk⟩

/-- Closing the pipe fails all who wait. -/
theorem Accounted.closePipe (h : Accounted s) (hwf : WF s) : Accounted s.closePipe := by
  intro cb hcb
  rw [callbacks_closePipe hwf, Option.map_eq_some_iff] at hcb
  obtain ⟨log, hlog, hnil⟩ := hcb
  -- what was in the table has been fired, and so was everything else
  split at hnil
  · exact absurd (congrArg List.length hnil) (by simp)
  · rename_i hmem
    subst hnil
    exact absurd (h cb hlog) hmem

/-- A step loses no callback, unless it drops entries that wait. -/
theorem Accounted.step (h : Accounted s) (hwf : WF s) (hs : Step s a s')
    (hnothing : NothingPending s a) : Accounted s' := by
  subst hs
  cases a with
  | setup =>
    show Accounted s.setup
    unfold State.setup
    split <;> exact h
  | connect | connectError => exact h
  | sendRequest callback => exact h.sendRequest hwf callback
  | response msgid err result => exact h.response msgid err result
  | closePipe => exact h.closePipe hwf
  | disconnect =>
    -- the condition is exactly that nothing is dropped
    have hempty : s.pending = ∅ := hnothing
    intro cb hcb
    have hmem := h cb hcb
    rw [State.waiting, hempty] at hmem
    exact nomatch hmem

/-- A disconnect drops what is in the table. -/
theorem nothingPending_of_firedOnce (hwf : WF s) (hs : Step s a s') (h : FiredOnce s') :
    NothingPending s a := by
  subst hs
  cases a with
  | setup | connect | connectError | sendRequest | response | closePipe => trivial
  | disconnect =>
    apply AList.ext
    apply List.eq_nil_iff_forall_not_mem.mpr
    intro e he
    -- a callback in the table is not fired, and never will be
    have hunfired := hwf.unfired e.1 e.2 (AList.mem_lookup_iff.mpr he)
    have hfired := h.2 rfl [] (List.mem_of_getElem? hunfired)
    exact nomatch hfired

/-- In every run, no callback is fired twice, and each has been fired whenever the client is not
    connected, exactly if `M.disconnect` never finds a callback in the pending table. -/
theorem fired_once_iff (h : Run Step .new tr s) :
    (∀ x ∈ tr, FiredOnce x.post) ↔ ∀ x ∈ tr, NothingPending x.pre x.label := by
  apply h.forall_post_iff_of (P := Accounted)
  · intro cb hcb
    simp [State.new] at hcb
  · intro tr s a s' hrun haccounted hs
    have hwf := wf_of_run hrun
    have hkeep : NothingPending s a → Accounted s' := haccounted.step hwf hs
    exact ⟨⟨nothingPending_of_firedOnce hwf hs, fun hnothing =>
      (hkeep hnothing).firedOnce (hwf.step hs)⟩, hkeep⟩

/-- The run of a list of actions. -/
theorem run_of_actions (as : List (Action K V))
    (h : (Run.follow (fun s a => some (s.next a)) (.new : State K V) as).isSome) :
    Run Step .new ((Run.follow (fun s a => some (s.next a)) .new as).get h).1
      ((Run.follow (fun s a => some (s.next a)) .new as).get h).2 :=
  (Run.of_follow _ _ as h).mono fun _ _ _ => Option.some.inj

/-- Two requests: one is answered, then the connection is lost. -/
theorem fired_once_iff_lost :
    ∃ tr s, Run Step (.new : State Unit Unit) tr s ∧
      s.callbacks = [[.result none], [.connectionLost]] ∧
      ((∀ x ∈ tr, FiredOnce x.post) ↔ ∀ x ∈ tr, NothingPending x.pre x.label) := by
  have hrun := run_of_actions (K := Unit) (V := Unit) [.setup, .connect, .sendRequest true,
    .sendRequest true, .response (.int 1) none none, .closePipe] rfl
  exact ⟨_, _, hrun, rfl, fired_once_iff hrun⟩

/-- A disconnect with a request in flight: its callback is never fired. -/
theorem disconnect_drops :
    ¬ ∀ tr s, Run Step (.new : State Unit Unit) tr s → ∀ x ∈ tr, FiredOnce x.post := by
  intro h
  have hrun := run_of_actions (K := Unit) (V := Unit)
    [.setup, .connect, .sendRequest true, .disconnect] rfl
  have hfired := h _ _ hrun _ (List.mem_of_getElem? (i := 3) rfl)
  exact nomatch hfired.2 rfl [] (List.mem_of_getElem? (i := 0) rfl)

end NvimClient

end Kgd
