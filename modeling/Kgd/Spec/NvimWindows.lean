import Kgd.Client.NvimTracker
import Kgd.ForStd.List
import Kgd.ForStd.Run
import Mathlib.Data.Finset.Lattice.Lemmas

/-!
# Windows of the neovim client

Windows are registered by autocmds only, and not while the client is connecting. So what is open
when the connection is made is registered only if an autocmd that registers all windows is run
after it.

## Key results

- `NvimTracker.Tracked.step`: what is registered, or will be by an event that is left
- `NvimTracker.windows_registered`: over all runs
-/

namespace Kgd

namespace NvimTracker

/-- The autocmd of the event registers all windows. -/
def Event.registersAll : Event → Bool
  | .winNew | .bufWinEnter | .winResized => true
  | .winScrolled _ | .winClosed _ => false

variable {K V : Type}

/-- There is a connection. -/
def Connected (s : State K V) : Prop := s.client.connected = true ∧ s.client.pipe = true

/-- Once all autocmds have been run, exactly the open windows are registered. -/
def Registered (s : State K V) : Prop :=
  Connected s → s.events = [] → ∀ win, win ∈ s.wins ↔ win ∈ s.daemon

/-- When the connection is made, an autocmd is left that registers all windows. -/
def RegistersLater (s : State K V) : Action K V → Prop
  | .client .connect => ∃ e ∈ s.events, e.registersAll = true
  | _ => True

instance (s : State K V) (a : Action K V) : Decidable (RegistersLater s a) :=
  match a with
  | .client .connect => inferInstanceAs (Decidable (∃ e ∈ s.events, e.registersAll = true))
  | .client .setup | .client .connectError | .client (.sendRequest _) | .client (.response ..)
    | .client .closePipe | .client .disconnect | .setup | .disconnect | .openWin | .closeWin _
    | .change _ | .autocmd _ => isTrue trivial

/-- An open window is registered or will be, a registered window is open or will be
    unregistered, and the tracker knows it. -/
structure Tracking (s : State K V) : Prop where
  opened : (∃ e ∈ s.events, e.registersAll = true) ∨ ∀ win ∈ s.wins, win ∈ s.daemon
  closed : ∀ win ∈ s.daemon, win ∈ s.wins ∨ .winClosed win ∈ s.events
  known : ∀ win ∈ s.daemon, win ∈ s.registeredWins

/-- A window that has been closed is not opened again. -/
structure Handles (s : State K V) : Prop where
  nodup : s.wins.Nodup
  used : ∀ win ∈ s.wins, win < s.nextWin
  gone : ∀ win, .winClosed win ∈ s.events → win < s.nextWin ∧ win ∉ s.wins

structure Tracked (s : State K V) : Prop where
  augroup : s.client.pipe = true → s.augroup = true
  handles : Handles s
  tracking : Connected s → Tracking s

variable {s s' : State K V} {a : Action K V} {e : Event} {win : Nat}
  {tr : List (Transition (State K V) (Action K V))}

/-! ## Registering windows -/

/-- Only what is registered changes. -/
structure SameWindows (s s' : State K V) : Prop where
  client : s'.client = s.client
  augroup : s'.augroup = s.augroup
  wins : s'.wins = s.wins
  nextWin : s'.nextWin = s.nextWin
  events : s'.events = s.events

theorem SameWindows.refl (s : State K V) : SameWindows s s := ⟨rfl, rfl, rfl, rfl, rfl⟩

/-- Only what is registered changes, twice. -/
theorem SameWindows.trans {s'' : State K V} (h : SameWindows s s') (h' : SameWindows s' s'') :
    SameWindows s s'' :=
  ⟨h'.client.trans h.client, h'.augroup.trans h.augroup, h'.wins.trans h.wins,
    h'.nextWin.trans h.nextWin, h'.events.trans h.events⟩

theorem sameWindows_registerWin (s : State K V) (win : Nat) :
    SameWindows s (s.registerWin win) := by
  unfold State.registerWin
  split
  · exact .refl s
  · split
    · exact .refl s
    · dsimp only
      split <;> exact ⟨rfl, rfl, rfl, rfl, rfl⟩

theorem sameWindows_unregisterWin (s : State K V) (win : Nat) :
    SameWindows s (s.unregisterWin win) := by
  unfold State.unregisterWin
  split
  · exact .refl s
  · split
    · dsimp only
      split <;> exact ⟨rfl, rfl, rfl, rfl, rfl⟩
    · exact .refl s

theorem sameWindows_foldl (l : List Nat) (s : State K V) :
    SameWindows s (l.foldl State.registerWin s) := by
  induction l generalizing s with
  | nil => exact .refl s
  | cons win l ih => exact (sameWindows_registerWin s win).trans (ih _)

theorem sameWindows_handle (s : State K V) (e : Event) : SameWindows s (s.handle e) := by
  cases e with
  | winNew | bufWinEnter | winResized => exact sameWindows_foldl s.wins s
  | winScrolled win =>
    show SameWindows s (if win ∈ s.wins then s.registerWin win else s)
    split
    · exact sameWindows_registerWin s win
    · exact .refl s
  | winClosed win => exact sameWindows_unregisterWin s win

/-- With a connection, an open window is registered on both sides. -/
theorem registerWin_eq (h : Connected s) (hwin : win ∈ s.wins) :
    s.registerWin win = { s with
      daemon := insert win s.daemon, registeredWins := insert win s.registeredWins } := by
  simp [State.registerWin, h.1, h.2, hwin]

/-- A window that the tracker knows is unregistered while connected. -/
theorem unregisterWin_eq (h : Connected s) (hwin : win ∈ s.registeredWins) :
    s.unregisterWin win = { s with
      daemon := s.daemon.erase win, registeredWins := s.registeredWins.erase win } := by
  simp [State.unregisterWin, h.1, h.2, hwin]

/-- Open windows are registered while connected. -/
theorem foldl_registerWin_eq (h : Connected s) {l : List Nat} (hl : ∀ win ∈ l, win ∈ s.wins) :
    l.foldl State.registerWin s = { s with
      daemon := s.daemon ∪ l.toFinset, registeredWins := s.registeredWins ∪ l.toFinset } := by
  induction l generalizing s with
  | nil =>
    rw [List.toFinset_nil, Finset.union_empty, Finset.union_empty]
    rfl
  | cons win l ih =>
    -- one window more, and then those of the list
    have hinsert : ∀ t : Finset Nat, insert win t ∪ l.toFinset = t ∪ (win :: l).toFinset := by
      intro t
      ext w
      simp only [List.toFinset_cons, Finset.mem_union, Finset.mem_insert, or_assoc, or_left_comm]
    have hconn : Connected { s with
        daemon := insert win s.daemon, registeredWins := insert win s.registeredWins } := h
    rw [List.foldl_cons, registerWin_eq h (hl win List.mem_cons_self),
      ih hconn fun w hw => hl w (List.mem_cons_of_mem _ hw)]
    simp only [hinsert]

/-- With a connection, all open windows are registered on both sides. -/
theorem registerAllWins_eq (h : Connected s) :
    s.registerAllWins = { s with
      daemon := s.daemon ∪ s.wins.toFinset
      registeredWins := s.registeredWins ∪ s.wins.toFinset } :=
  foldl_registerWin_eq h fun _ => id

/-! ## Events -/

/-- An open window can be registered at any time. -/
theorem Tracking.register (h : Tracking s) (hwin : win ∈ s.wins) :
    Tracking { s with
      daemon := insert win s.daemon, registeredWins := insert win s.registeredWins } where
  opened := h.opened.imp_right fun hall w hw => Finset.mem_insert_of_mem (hall w hw)
  closed w hw := by
    rcases Finset.mem_insert.mp hw with rfl | hold
    · exact .inl hwin
    · exact h.closed w hold
  known w hw := by
    rcases Finset.mem_insert.mp hw with rfl | hold
    · exact Finset.mem_insert_self _ _
    · exact Finset.mem_insert_of_mem (h.known w hold)

/-- An event whose autocmd is about no window in particular is not one that closes a window. -/
theorem ne_winClosed (he : e.registersAll = true) (win : Nat) : .winClosed win ≠ e := by
  rintro rfl
  exact nomatch he

/-- An event of neither kind can go. -/
theorem Tracking.erase (h : Tracking s) (he : e.registersAll = false)
    (hclosed : ∀ win, .winClosed win ≠ e) : Tracking { s with events := s.events.erase e } where
  opened := by
    refine h.opened.imp_left fun hleft => ?_
    obtain ⟨e', he', hall⟩ := hleft
    -- the event that would register all is still to come
    have hne : e' ≠ e := by
      rintro rfl
      exact nomatch he.symm.trans hall
    exact ⟨e', (List.mem_erase_of_ne hne).mpr he', hall⟩
  closed win hwin :=
    (h.closed win hwin).imp_right (List.mem_erase_of_ne (hclosed win)).mpr
  known := h.known

/-- Its autocmd registers all windows. -/
theorem Tracking.registerAllWins (h : Tracking s) (hconn : Connected s)
    (he : e.registersAll = true) :
    Tracking { s with events := s.events.erase e }.registerAllWins := by
  have hconn' : Connected { s with events := s.events.erase e } := hconn
  rw [registerAllWins_eq hconn']
  refine ⟨.inr fun win hwin => ?_, fun win hwin => ?_, fun win hwin => ?_⟩
  · exact Finset.mem_union_right _ (List.mem_toFinset.mpr hwin)
  -- what the daemon has is an old window or an open one
  · rcases Finset.mem_union.mp hwin with hold | hnew
    · exact (h.closed win hold).imp_right (List.mem_erase_of_ne (ne_winClosed he win)).mpr
    · exact .inl (List.mem_toFinset.mp hnew)
  · rcases Finset.mem_union.mp hwin with hold | hnew
    · exact Finset.mem_union_left _ (h.known win hold)
    · exact Finset.mem_union_right _ hnew

/-- The autocmd of a window that has been closed unregisters it. -/
theorem Tracking.unregisterWin (h : Tracking s) (hconn : Connected s) (hwin : win ∉ s.wins) :
    Tracking ({ s with events := s.events.erase (.winClosed win) }.unregisterWin win) := by
  have hopened : (∃ e ∈ s.events.erase (.winClosed win), e.registersAll = true) ∨
      ∀ w ∈ s.wins, w ∈ s.daemon := by
    refine h.opened.imp_left fun hleft => ?_
    obtain ⟨e, he, hall⟩ := hleft
    exact ⟨e, (List.mem_erase_of_ne (ne_winClosed hall win).symm).mpr he, hall⟩
  -- for every other window its own event is still queued
  have hclosed : ∀ w ∈ s.daemon, w ≠ win →
      w ∈ s.wins ∨ .winClosed w ∈ s.events.erase (.winClosed win) := by
    intro w hw hne
    have hne' : Event.winClosed w ≠ .winClosed win := fun heq => hne (Event.winClosed.inj heq)
    exact (h.closed w hw).imp_right (List.mem_erase_of_ne hne').mpr
  have hconn' : Connected { s with events := s.events.erase (.winClosed win) } := hconn
  by_cases hknown : win ∈ s.registeredWins
  · rw [unregisterWin_eq hconn' hknown]
    refine ⟨hopened.imp_right fun hall w hw => ?_, fun w hw => ?_, fun w hw => ?_⟩
    · have hne : w ≠ win := by
        rintro rfl
        exact hwin hw
      exact Finset.mem_erase.mpr ⟨hne, hall w hw⟩
    · obtain ⟨hne, hw⟩ := Finset.mem_erase.mp hw
      exact hclosed w hw hne
    · obtain ⟨hne, hw⟩ := Finset.mem_erase.mp hw
      exact Finset.mem_erase.mpr ⟨hne, h.known w hw⟩
  · -- a window that the tracker does not know is not registered
    have hsame : { s with events := s.events.erase (.winClosed win) }.unregisterWin win =
        { s with events := s.events.erase (.winClosed win) } := by
      simp [State.unregisterWin, hknown]
    rw [hsame]
    refine ⟨hopened, fun w hw => hclosed w hw ?_, h.known⟩
    rintro rfl
    exact hknown (h.known w hw)

/-- Handling an autocmd keeps track of the windows, if a closed one is gone. -/
theorem Tracking.handle (h : Tracking s) (hconn : Connected s)
    (hgone : ∀ win, e = .winClosed win → win ∉ s.wins) :
    Tracking ({ s with events := s.events.erase e }.handle e) := by
  cases e with
  | winNew | bufWinEnter | winResized => exact h.registerAllWins hconn rfl
  | winScrolled win =>
    have herased := h.erase (e := .winScrolled win) rfl nofun
    show Tracking (if win ∈ s.wins then _ else _)
    split
    · rename_i hwin
      have hconn' : Connected { s with events := s.events.erase (.winScrolled win) } := hconn
      -- the scrolled window is open, and registered with its new line
      rw [registerWin_eq hconn' hwin]
      exact herased.register hwin
    · exact herased
  | winClosed win => exact h.unregisterWin hconn (hgone win rfl)

/-! ## Steps -/

theorem Handles.congr (h : Handles s) (hsame : SameWindows s s') : Handles s' where
  nodup := by rw [hsame.wins]; exact h.nodup
  used := by rw [hsame.wins, hsame.nextWin]; exact h.used
  gone := by rw [hsame.wins, hsame.nextWin, hsame.events]; exact h.gone

/-- A window that is opened has a new handle. -/
theorem Handles.openWin (h : Handles s) : Handles { s with
    wins := s.wins ++ [s.nextWin], nextWin := s.nextWin + 1,
    events := s.events ++ [.winNew] } where
  nodup := by
    -- Neovim never uses a window handle twice
    have hnew : s.nextWin ∉ s.wins := fun hmem => Nat.lt_irrefl _ (h.used _ hmem)
    exact List.nodup_append.mpr ⟨h.nodup, List.nodup_singleton _, fun w hw w' hw' => by
      rintro rfl
      exact hnew (List.mem_singleton.mp hw' ▸ hw)⟩
  used w hw := by
    rcases List.mem_append.mp hw with hold | hnew
    · exact Nat.lt_succ_of_lt (h.used w hold)
    · rw [List.mem_singleton.mp hnew]
      exact Nat.lt_succ_self _
  gone w hw := by
    rcases List.mem_append.mp hw with hold | hnew
    · obtain ⟨hlt, hnot⟩ := h.gone w hold
      refine ⟨Nat.lt_succ_of_lt hlt, fun hmem => ?_⟩
      rcases List.mem_append.mp hmem with hmem | hmem
      · exact hnot hmem
      · rw [List.mem_singleton.mp hmem] at hlt
        exact Nat.lt_irrefl _ hlt
    · exact nomatch List.mem_singleton.mp hnew

/-- A window that is closed is gone. -/
theorem Handles.closeWin (h : Handles s) (hwin : win ∈ s.wins) : Handles { s with
    wins := s.wins.erase win, events := s.events ++ [.winClosed win] } where
  nodup := h.nodup.erase win
  used w hw := h.used w (List.mem_of_mem_erase hw)
  gone w hw := by
    rcases List.mem_append.mp hw with hold | hnew
    · obtain ⟨hlt, hnot⟩ := h.gone w hold
      exact ⟨hlt, fun hmem => hnot (List.mem_of_mem_erase hmem)⟩
    · obtain rfl := Event.winClosed.inj (List.mem_singleton.mp hnew)
      exact ⟨h.used w hwin, h.nodup.not_mem_erase⟩

theorem Handles.erase (h : Handles s) (e : Event) :
    Handles { s with events := s.events.erase e } where
  nodup := h.nodup
  used := h.used
  gone w hw := h.gone w (List.mem_of_mem_erase hw)

/-- A window that is opened leaves an autocmd that will register it. -/
theorem Tracking.openWin (h : Tracking s) : Tracking { s with
    wins := s.wins ++ [s.nextWin], nextWin := s.nextWin + 1,
    events := s.events ++ [.winNew] } where
  opened := .inl ⟨.winNew, List.mem_append_right _ (List.mem_singleton_self _), rfl⟩
  closed w hw := (h.closed w hw).imp (List.mem_append_left _) (List.mem_append_left _)
  known := h.known

/-- A window that is closed leaves an autocmd that will unregister it. -/
theorem Tracking.closeWin (h : Tracking s) (win : Nat) : Tracking { s with
    wins := s.wins.erase win, events := s.events ++ [.winClosed win] } where
  opened := h.opened.imp
    (fun hleft => hleft.imp fun _ he => ⟨List.mem_append_left _ he.1, he.2⟩)
    (fun hall w hw => hall w (List.mem_of_mem_erase hw))
  closed w hw := by
    rcases h.closed w hw with hopen | hgone
    -- for the closed window the event is queued now
    · by_cases hwin : w = win
      · subst hwin
        exact .inr (List.mem_append_right _ (List.mem_singleton_self _))
      · exact .inl ((List.mem_erase_of_ne hwin).mpr hopen)
    · exact .inr (List.mem_append_left _ hgone)
  known := h.known

/-- One more autocmd does no harm. -/
theorem Tracking.change (h : Tracking s) (e : Event) :
    Tracking { s with events := s.events ++ [e] } where
  opened := h.opened.imp_left fun hleft =>
    hleft.imp fun _ he => ⟨List.mem_append_left _ he.1, he.2⟩
  closed w hw := (h.closed w hw).imp_right (List.mem_append_left _)
  known := h.known

/-- At the start there is nothing to track. -/
theorem Tracked.new : Tracked (.new : State K V) where
  augroup h := nomatch h
  handles := by
    refine ⟨List.nodup_singleton _, fun w hw => ?_, nofun⟩
    rw [List.mem_singleton.mp hw]
    exact Nat.lt_succ_self _
  tracking h := nomatch h.1

/-- A step of the client that makes no connection. -/
theorem Tracked.congrClient {c : NvimClient.State K V} (h : Tracked s)
    (hpipe : c.pipe = true → s.client.pipe = true)
    (hconnected : c.connected = true → s.client.connected = true) :
    Tracked { s with client := c } where
  augroup hp := h.augroup (hpipe hp)
  handles := ⟨h.handles.nodup, h.handles.used, h.handles.gone⟩
  tracking hconn := by
    obtain ⟨hopened, hclosed, hknown⟩ := h.tracking ⟨hconnected hconn.1, hpipe hconn.2⟩
    exact ⟨hopened, hclosed, hknown⟩

/-- The setup makes the autocmds. -/
theorem Tracked.setup (h : Tracked s) :
    Tracked { s with client := s.client.setup }.setupTracker := by
  cases hconn : s.client.connected with
  | true =>
    have hclient : s.client.setup = s.client := by simp [NvimClient.State.setup, hconn]
    rw [hclient]
    unfold State.setupTracker
    split
    · exact h
    · rename_i haugroup
      -- the flag is set without a pipe
      have hsame := sameWindows_foldl s.wins { s with augroup := true }
      refine ⟨fun _ => hsame.augroup, ?_, fun hc => ?_⟩
      · exact Handles.congr (s := { s with augroup := true })
          ⟨h.handles.nodup, h.handles.used, h.handles.gone⟩ hsame
      · have hpipe : s.client.pipe = true := by
          have hc' := hc.2
          rw [State.registerAllWins, hsame.client] at hc'
          exact hc'
        exact absurd (h.augroup hpipe) haugroup
  | false =>
    have hsame : SameWindows { s with client := s.client.setup, augroup := true }
        { s with client := s.client.setup }.setupTracker := by
      unfold State.setupTracker
      split
      · rename_i haugroup
        exact ⟨rfl, haugroup, rfl, rfl, rfl⟩
      · exact sameWindows_foldl s.wins { s with client := s.client.setup, augroup := true }
    refine ⟨fun _ => hsame.augroup, ?_, fun hc => ?_⟩
    · exact Handles.congr (s := { s with client := s.client.setup, augroup := true })
        ⟨h.handles.nodup, h.handles.used, h.handles.gone⟩ hsame
    · have hc' := hc.1
      rw [hsame.client] at hc'
      simp [NvimClient.State.setup, hconn] at hc'

/-- An autocmd that runs keeps track of the windows. -/
theorem Tracked.autocmd (h : Tracked s) (he : e ∈ s.events) :
    Tracked (if { s with events := s.events.erase e }.augroup then
      { s with events := s.events.erase e }.handle e
      else { s with events := s.events.erase e }) := by
  have hhandles := h.handles.erase e
  split
  · have hsame := sameWindows_handle { s with events := s.events.erase e } e
    refine ⟨fun hp => ?_, hhandles.congr hsame, fun hconn => ?_⟩
    · rw [hsame.augroup]
      rw [hsame.client] at hp
      exact h.augroup hp
    · have hconn' : Connected s := by
        rw [Connected, hsame.client] at hconn
        exact hconn
      apply (h.tracking hconn').handle hconn'
      rintro w rfl
      exact (h.handles.gone w he).2
  · rename_i haugroup
    refine ⟨h.augroup, hhandles, fun hconn => ?_⟩
    -- without autocommands the client has no pipe
    exact absurd (h.augroup hconn.2) haugroup

variable [DecidableEq K]

theorem pipe_sendRequest (c : NvimClient.State K V) (callback : Bool) :
    (c.sendRequest callback).pipe = c.pipe ∧
      (c.sendRequest callback).connected = c.connected := by
  unfold NvimClient.State.sendRequest
  split
  · split <;> exact ⟨rfl, rfl⟩
  · dsimp only
    split <;> exact ⟨rfl, rfl⟩

theorem pipe_response (c : NvimClient.State K V) (msgid : Key K) (err result : Option V) :
    (c.response msgid err result).pipe = c.pipe ∧
      (c.response msgid err result).connected = c.connected := by
  unfold NvimClient.State.response
  dsimp only
  split
  · split <;> exact ⟨rfl, rfl⟩
  · exact ⟨rfl, rfl⟩

/-- A step keeps track of the windows, if one that connects leaves an autocmd that registers all. -/
theorem Tracked.step (h : Tracked s) (hs : Step s a s') (hlater : RegistersLater s a) :
    Tracked s' := by
  unfold Step at hs
  cases a with
  | setup =>
    cases hs
    exact h.setup
  | disconnect =>
    cases hs
    exact ⟨nofun, ⟨h.handles.nodup, h.handles.used, h.handles.gone⟩, fun hconn => nomatch hconn.1⟩
  | client a =>
    cases a with
    | setup | disconnect => exact nomatch hs
    -- the table starts empty at a connect, and the step's condition has a change event to follow
    | connect =>
      cases hs
      refine ⟨h.augroup, ⟨h.handles.nodup, h.handles.used, h.handles.gone⟩, fun _ => ?_⟩
      exact ⟨.inl hlater, fun _ hw => absurd hw (Finset.notMem_empty _),
        fun _ hw => absurd hw (Finset.notMem_empty _)⟩
    | connectError =>
      cases hs
      exact h.congrClient nofun id
    | sendRequest callback =>
      cases hs
      obtain ⟨hpipe, hconnected⟩ := pipe_sendRequest s.client callback
      exact h.congrClient (hpipe ▸ ·) (hconnected ▸ ·)
    | response msgid err result =>
      cases hs
      obtain ⟨hpipe, hconnected⟩ := pipe_response s.client msgid err result
      exact h.congrClient (hpipe ▸ ·) (hconnected ▸ ·)
    | closePipe =>
      cases hs
      exact h.congrClient nofun nofun
  | openWin =>
    cases hs
    exact ⟨h.augroup, h.handles.openWin, fun hconn => (h.tracking hconn).openWin⟩
  | closeWin win =>
    simp only [State.next] at hs
    split at hs
    · rename_i hwin
      cases hs
      exact ⟨h.augroup, h.handles.closeWin hwin.1, fun hconn => (h.tracking hconn).closeWin win⟩
    · exact nomatch hs
  | change e =>
    cases e with
    | winNew | winClosed => exact nomatch hs
    | bufWinEnter | winResized | winScrolled =>
      cases hs
      refine ⟨h.augroup, ⟨h.handles.nodup, h.handles.used, fun w hw => ?_⟩,
        fun hconn => (h.tracking hconn).change _⟩
      rcases List.mem_append.mp hw with hold | hnew
      · exact h.handles.gone w hold
      · exact nomatch List.mem_singleton.mp hnew
  -- only an event that is queued can fire
  | autocmd e =>
    simp only [State.next] at hs
    split at hs
    · rename_i he
      cases hs
      exact h.autocmd he
    · exact nomatch hs

/-- In every run where an autocmd that registers all windows is left whenever a connection is
    made, exactly the open windows are registered once all autocmds have been run. -/
theorem windows_registered (h : Run Step .new tr s)
    (hlater : ∀ x ∈ tr, RegistersLater x.pre x.label) : Registered s := by
  have htracked : Tracked s := (h.restrict hlater).invariant .new
    fun _ _ _ hi hs => hi.step hs.1 hs.2
  intro hconn hevents win
  obtain ⟨hopened, hclosed, -⟩ := htracked.tracking hconn
  -- no event is left, so nothing is left to be corrected
  rw [hevents] at hopened hclosed
  constructor
  · intro hwin
    rcases hopened with ⟨e, he, -⟩ | hall
    · exact nomatch he
    · exact hall win hwin
  · intro hwin
    rcases hclosed win hwin with hwin | hgone
    · exact hwin
    · exact nomatch hgone

/-- A window is opened while the client is connecting, another one afterwards and closed again. -/
def resizedActions : List (Action Unit Unit) :=
  [.setup, .openWin, .change .winResized, .client .connect, .autocmd .winNew,
    .autocmd .winResized, .openWin, .autocmd .winNew, .closeWin 1002, .autocmd (.winClosed 1002)]

/-- At the end the two windows that are open are those registered. -/
theorem windows_registered_resized :
    ∃ tr s, Run Step (.new : State Unit Unit) tr s ∧ Connected s ∧ s.events = [] ∧
      s.wins = [1000, 1001] ∧ Registered s := by
  have hrun := Run.of_follow State.next .new resizedActions (by decide)
  exact ⟨_, _, hrun, ⟨rfl, rfl⟩, by decide, by decide, windows_registered hrun (by decide)⟩

/-- No window changes after the connection is made: the window that is there is not registered. -/
theorem connect_registers_nothing :
    ¬ ∀ tr s, Run Step (.new : State Unit Unit) tr s → Registered s := by
  intro h
  have hrun := Run.of_follow State.next (.new : State Unit Unit) [.setup, .client .connect]
    (by decide)
  have hmem := (h _ _ hrun ⟨rfl, rfl⟩ rfl 1000).mp (by decide)
  exact absurd hmem (by decide)

end NvimTracker

end Kgd
