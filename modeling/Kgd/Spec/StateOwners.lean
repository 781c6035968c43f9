import Kgd.Spec.EngineSteps

/-!
# Owners of engine state

The engine files placements, handle tables and windows under client IDs. What it has for a client
after an input it had before, or the input is a request of that client.

## Key results

- `Engine.owns_of_receive`: only uploads, placements and window registrations create state, and
  a disconnect leaves none
-/

namespace Kgd

namespace Engine

/-- The client has a placement, a handle table or a registered window. -/
def Owns (e : Engine) (id : ClientID) : Prop :=
  (∃ (pid : UInt32) (p : Placement), e.placements[pid]? = some p ∧ p.clientID = id) ∨
    id ∈ e.clientImages ∨
    ∃ (w : Int64) (win : WinGeometry), e.wins[w]? = some win ∧ win.clientID = id

end Engine

/-- The client for which handling the event can create state. -/
def Event.creator? : Event → Option ClientID
  | .placeRequest c _ | .uploadRequest c _ | .registerWin c _ => some c
  | .helloRequest .. | .unplaceRequest .. | .unplaceAllRequest .. | .freeRequest ..
  | .scrollUpdate .. | .unregisterWin .. | .updatePanes .. | .clientDisconnect ..
  | .listRequest .. | .statusRequest | .stopRequest => none

namespace Engine

variable {hash128 : Data → Hash} {env : Env} {e e' : Engine} {input : Input} {out : List Action}
  {id : ClientID}

/-- Eviction empties handle tables, and removes none. -/
theorem mem_clientImages_freeEvicted (env : Env) (e : Engine) (evicted : List UInt32) :
    id ∈ (e.freeEvicted env evicted).1.clientImages ↔ id ∈ e.clientImages := by
  induction evicted generalizing e with
  | nil => rfl
  | cons eid evicted ih =>
    simp only [freeEvicted, ih]
    simp only [notifyEviction, Std.ExtTreeMap.mem_iff_isSome_getElem?,
      GoMap.rangeUpdate_getElem?]
    cases e.clientImages[id]? <;> simp

/-- Every placement was there before, for the same client, or is the one just placed. -/
theorem placement_origin (h : PlacementStep env e input out e') {pid : UInt32} {p : Placement}
    (hp : e'.placements[pid]? = some p) :
    (∃ p', e.placements[pid]? = some p' ∧ p'.clientID = p.clientID ∧
      input ≠ .event (.clientDisconnect p.clientID)) ∨
    ∃ params, input = .event (.placeRequest p.clientID params) := by
  cases h with
  | same _ _ _ _ hdisc hplacements =>
    exact Or.inl ⟨p, hplacements ▸ hp, rfl, hdisc _⟩
  | @place c params kittyID =>
    rcases GoMap.getElem?_insert_eq_some.mp hp with ⟨-, rfl⟩ | ⟨-, hold⟩
    · exact Or.inr ⟨params, rfl⟩
    · exact Or.inl ⟨p, hold, rfl, by simp⟩
  | unplace =>
    exact Or.inl ⟨p, (GoMap.getElem?_erase_eq_some.mp hp).2, rfl, by simp⟩
  | unplaceAll =>
    obtain ⟨hold, -⟩ := removeOwned_eq_some.mp hp
    exact Or.inl ⟨p, hold, rfl, by simp⟩
  | @disconnect c _ hplacements =>
    rw [hplacements] at hp
    obtain ⟨hold, hne⟩ := removeOwned_eq_some.mp hp
    exact Or.inl ⟨p, hold, rfl, by simpa using Ne.symm hne⟩
  | @recompute _ g _ hgeometry =>
    have hplacements : g.placements = e.placements := by rw [geometryUpdate_eq_some hgeometry]
    -- recomputing keeps a placement's client
    rw [placements_recompute, hplacements] at hp
    obtain ⟨p', hp', rfl⟩ := Option.map_eq_some_iff.mp hp
    refine Or.inl ⟨p', hp', by rw [recomputeOne_fst], ?_⟩
    rintro rfl
    exact nomatch hgeometry

/-- Every window was there before, for the same client, or is the one just registered. -/
theorem window_origin (h : PlacementStep env e input out e') {w : Int64} {win : WinGeometry}
    (hwin : e'.wins[w]? = some win) :
    (∃ win', e.wins[w]? = some win' ∧ win'.clientID = win.clientID ∧
      input ≠ .event (.clientDisconnect win.clientID)) ∨
    ∃ params, input = .event (.registerWin win.clientID params) := by
  cases h with
  | same _ _ _ _ hdisc _ _ _ hwins =>
    exact Or.inl ⟨win, hwins ▸ hwin, rfl, hdisc _⟩
  | place => exact Or.inl ⟨win, hwin, rfl, by simp⟩
  | unplace => exact Or.inl ⟨win, hwin, rfl, by simp⟩
  | unplaceAll => exact Or.inl ⟨win, hwin, rfl, by simp⟩
  -- the client's own windows go, all others stay
  | disconnect _ _ _ _ _ hwins =>
    rw [hwins, Option.bind_eq_some_iff] at hwin
    obtain ⟨win', hold, hkept⟩ := hwin
    split at hkept
    · exact nomatch hkept
    · rename_i hne
      obtain rfl := Option.some.inj hkept
      exact Or.inl ⟨win', hold, rfl, by simpa using Ne.symm hne⟩
  | @recompute _ g _ hgeometry =>
    have hwin' : g.wins[w]? = some win := hwin
    unfold geometryUpdate at hgeometry
    split at hgeometry
    · obtain rfl := Option.some.inj hgeometry
      exact Or.inl ⟨win, hwin', rfl, by simp⟩
    · -- a scroll update keeps the window's client
      obtain ⟨win₀, hwin₀, rfl⟩ := Option.map_eq_some_iff.mp hgeometry
      rcases GoMap.getElem?_insert_eq_some.mp hwin' with ⟨rfl, rfl⟩ | ⟨-, hold⟩
      · exact Or.inl ⟨win₀, hwin₀, rfl, by simp⟩
      · exact Or.inl ⟨win, hold, rfl, by simp⟩
    · rename_i c params
      obtain rfl := Option.some.inj hgeometry
      rcases GoMap.getElem?_insert_eq_some.mp hwin' with ⟨-, rfl⟩ | ⟨-, hold⟩
      · exact Or.inr ⟨params, rfl⟩
      · exact Or.inl ⟨win, hold, rfl, by simp⟩
    · obtain rfl := Option.some.inj hgeometry
      exact Or.inl ⟨win, (GoMap.getElem?_erase_eq_some.mp hwin').2, rfl, by simp⟩
    · obtain rfl := Option.some.inj hgeometry
      exact Or.inl ⟨win, hwin', rfl, by simp⟩
    · exact nomatch hgeometry

/-- Every handle table was there before, or is that of an upload. -/
theorem table_origin (h : ImageStep hash128 env e input out e') (htable : id ∈ e'.clientImages) :
    (id ∈ e.clientImages ∧ input ≠ .event (.clientDisconnect id)) ∨
    ∃ params, input = .event (.uploadRequest id params) := by
  cases h with
  | quiet _ _ hdisc _ himages => exact Or.inl ⟨himages ▸ htable, hdisc _⟩
  | @hit c params =>
    rcases Std.ExtTreeMap.mem_insert.mp htable with heq | hold
    · obtain rfl := Std.LawfulEqOrd.compare_eq_iff_eq.mp heq
      exact Or.inr ⟨params, rfl⟩
    · exact Or.inl ⟨hold, by simp⟩
  | refused => exact Or.inl ⟨htable, by simp⟩
  | @miss c params e₁ _ _ _ _ hevict =>
    rcases Std.ExtTreeMap.mem_insert.mp htable with heq | hold
    · obtain rfl := Std.LawfulEqOrd.compare_eq_iff_eq.mp heq
      exact Or.inr ⟨params, rfl⟩
    · have hfst := congrArg Prod.fst hevict
      rw [← (show _ = e₁ from hfst), mem_clientImages_freeEvicted] at hold
      exact Or.inl ⟨hold, by simp⟩
  | @free c handle kittyID himage =>
    rcases Std.ExtTreeMap.mem_insert.mp htable with heq | hold
    · obtain rfl := Std.LawfulEqOrd.compare_eq_iff_eq.mp heq
      -- the handle was found in the client's table
      obtain ⟨images, himages, -⟩ := Option.bind_eq_some_iff.mp himage
      exact Or.inl ⟨GoMap.mem_of_getElem? himages, by simp⟩
    · exact Or.inl ⟨hold, by simp⟩
  | disconnect _ himages =>
    rw [himages] at htable
    obtain ⟨hne, hold⟩ := Std.ExtTreeMap.mem_erase.mp htable
    refine Or.inl ⟨hold, ?_⟩
    rintro heq
    obtain ⟨rfl⟩ := Event.clientDisconnect.inj (Input.event.inj heq)
    exact hne Std.ReflCmp.compare_self

/-- Handling an input creates state only for the client of an upload, a placement or a window
    registration, and leaves none for a client that has disconnected. -/
theorem owns_of_receive (h : e.receive hash128 env input = some (e', out)) (howns : e'.Owns id) :
    (e.Owns id ∧ input ≠ .event (.clientDisconnect id)) ∨
      ∃ ev, input = .event ev ∧ ev.creator? = some id := by
  -- placements, handles and windows come from a request of their client, or were there
  rcases howns with ⟨pid, p, hp, rfl⟩ | htable | ⟨w, win, hwin, rfl⟩
  · rcases placement_origin (placementStep_of_receive h) hp with
      ⟨p', hp', hid, hne⟩ | ⟨params, rfl⟩
    · exact Or.inl ⟨Or.inl ⟨pid, p', hp', hid⟩, hne⟩
    · exact Or.inr ⟨_, rfl, rfl⟩
  · rcases table_origin (imageStep_of_receive h) htable with ⟨hold, hne⟩ | ⟨params, rfl⟩
    · exact Or.inl ⟨Or.inr (Or.inl hold), hne⟩
    · exact Or.inr ⟨_, rfl, rfl⟩
  · rcases window_origin (placementStep_of_receive h) hwin with
      ⟨win', hwin', hid, hne⟩ | ⟨params, rfl⟩
    · exact Or.inl ⟨Or.inr (Or.inr ⟨w, win', hwin', hid⟩), hne⟩
    · exact Or.inr ⟨_, rfl, rfl⟩

end Engine

end Kgd
