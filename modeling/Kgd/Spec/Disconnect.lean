import Kgd.Spec.ImageAccounting

/-!
# A disconnect cleans up exactly one client

`Engine.Cleaned` says what is left of a client after `ClientDisconnect`, nothing, and what is
left of everything else, all of it.

## Key results

- `Engine.cleaned_handleClientDisconnect`: every disconnect does this
- `Engine.handleClientDisconnect_again`: a second one does nothing
- `Engine.disconnect_cleans`: both, for engines whose images are accounted for
-/

namespace Kgd

namespace Engine

/-- `e'` is `e` without the client `c`, which was cleaned up by `out`. -/
structure Cleaned (e : Engine) (c : ClientID) (e' : Engine) (out : List Action) : Prop where
  /-- nothing is left of the client -/
  noPlacement : ∀ (pid : UInt32) (p : Placement), e'.placements[pid]? = some p → p.clientID ≠ c
  noTable : e'.clientImages[c]? = none
  noWindow : ∀ (winID : Int64) (win : WinGeometry), e'.wins[winID]? = some win → win.clientID ≠ c
  /-- one `Delete` for each of its rendered placements is all that happens -/
  deletes : e.gfx = true → ∃ ps : List (UInt32 × Placement), ps.Nodup ∧
    (∀ pid p, (pid, p) ∈ ps ↔
      e.placements[pid]? = some p ∧ p.clientID = c ∧ p.rendered = true) ∧
    out = ps.map fun x => .gfx (.delete x.2.kittyImgID x.2.id false)
  silent : e.gfx = false → out = []
  /-- the cache holds the same entries, each with as many references less as the client had
      handles to it -/
  cache : e'.cache = { e.cache with heap := e'.cache.heap }
  counts : e'.cache.view = e.cache.view.map fun en =>
    { en with
      refCount := en.refCount -
        ({handle | e.handleImage c handle = some en.kittyImgID} : Set UInt32).ncard }
  /-- the other clients keep what they have -/
  placements : ∀ (pid : UInt32) (p : Placement), p.clientID ≠ c →
    (e'.placements[pid]? = some p ↔ e.placements[pid]? = some p)
  tables : ∀ c', c' ≠ c → e'.clientImages[c']? = e.clientImages[c']?
  windows : ∀ (winID : Int64) (win : WinGeometry), win.clientID ≠ c →
    (e'.wins[winID]? = some win ↔ e.wins[winID]? = some win)
  /-- panes, terminal size, ID counters and the rest stay -/
  rest : e' = { e with
    cache := e'.cache, placements := e'.placements, clientImages := e'.clientImages,
    wins := e'.wins }

variable {e : Engine} {c : ClientID}

/-! ## What goes -/

/-- What the loop over the placements emits. -/
theorem removeOwned_snd (env : Env) (e : Engine) (c : ClientID) :
    (e.removeOwned env c).2 =
      ((GoMap.entries env.placementOrder e.placements).filter fun x =>
        x.2.clientID == c && x.2.rendered).flatMap fun x =>
          e.gfxCalls [.delete x.2.kittyImgID x.2.id false] := by
  rw [removeOwned, GoMap.rangeUpdate_snd_entries]
  induction GoMap.entries env.placementOrder e.placements with
  | nil => rfl
  | cons x xs ih =>
    rw [List.flatMap_cons, ih, List.filter_cons, deleteRendered]
    cases hc : x.2.clientID == c <;> cases hr : x.2.rendered <;> simp

/-- Graphics calls made one by one are those made together. -/
theorem flatMap_gfxCalls {α : Type} (e : Engine) (f : α → GfxCall) (l : List α) :
    (l.flatMap fun a => e.gfxCalls [f a]) = e.gfxCalls (l.map f) := by
  induction l with
  | nil =>
    unfold gfxCalls
    split <;> rfl
  | cons a l ih =>
    rw [List.flatMap_cons, ih]
    unfold gfxCalls
    split <;> rfl

/-- `Release` changes counts and nothing else. -/
theorem releaseAll_eq (cache : Cache) (images : List (UInt32 × UInt32)) :
    releaseAll cache images = { cache with heap := (releaseAll cache images).heap } := by
  induction images generalizing cache with
  | nil => rfl
  | cons image images ih =>
    have hone : cache.release image.2 = { cache with heap := (cache.release image.2).heap } := by
      unfold Cache.release
      split <;> rfl
    rw [releaseAll, List.foldl_cons, ← releaseAll, ih, hone]

/-! ## One disconnect -/

/-- The windows that stay are those of other clients. -/
theorem wins_handleClientDisconnect_eq_some {env : Env} {winID : Int64} {win : WinGeometry} :
    (e.handleClientDisconnect env c).1.wins[winID]? = some win ↔
      e.wins[winID]? = some win ∧ win.clientID ≠ c := by
  rw [wins_handleClientDisconnect, Option.bind_eq_some_iff]
  constructor
  · intro hx
    obtain ⟨win', hwin', heq⟩ := hx
    split at heq
    · exact nomatch heq
    -- kept as it was, since it is another client's
    · rename_i howner
      obtain rfl := Option.some.inj heq
      exact ⟨hwin', howner⟩
  · intro hx
    exact ⟨win, hx.1, if_neg hx.2⟩

/-- Every disconnect removes all of the client and nothing else. -/
theorem cleaned_handleClientDisconnect (h : e.cache.WF) (env : Env) (c : ClientID) :
    e.Cleaned c (e.handleClientDisconnect env c).1 (e.handleClientDisconnect env c).2 := by
  have hout : (e.handleClientDisconnect env c).2 = (e.removeOwned env c).2 := rfl
  have hplacements : (e.handleClientDisconnect env c).1.placements =
      (e.removeOwned env c).1.placements := rfl
  have himages : (e.handleClientDisconnect env c).1.clientImages = e.clientImages.erase c := rfl
  have hcache := cache_handleClientDisconnect env e c
  constructor
  case noPlacement =>
    intro pid p hp
    exact (removeOwned_eq_some.mp (hplacements ▸ hp)).2
  case noTable =>
    rw [himages]
    exact Std.ExtTreeMap.getElem?_erase_self
  case noWindow =>
    intro winID win hwin
    exact (wins_handleClientDisconnect_eq_some.mp hwin).2
  -- the loop over the placements calls the backend for those it removes, in its own order
  case deletes =>
    intro hgfx
    refine ⟨(GoMap.entries env.placementOrder e.placements).filter fun x =>
      x.2.clientID == c && x.2.rendered, (GoMap.nodup_entries _ _).filter _, ?_, ?_⟩
    · intro pid p
      rw [List.mem_filter, GoMap.mem_entries, Bool.and_eq_true, beq_iff_eq]
    · rw [hout, removeOwned_snd, flatMap_gfxCalls, gfxCalls, if_pos hgfx, List.map_map]
      rfl
  case silent =>
    intro hgfx
    rw [hout, removeOwned_snd, flatMap_gfxCalls, gfxCalls, if_neg (by simp [hgfx])]
  case cache =>
    rw [hcache]
    exact releaseAll_eq _ _
  -- an entry loses one reference for each handle that stood for its image
  case counts =>
    rw [hcache, view_releaseAll h]
    apply List.map_congr_left
    intro en _
    rw [CacheEntry.addRef, GoMap.countP_entries]
    simp only [handleImage_eq, CacheEntry.mk.injEq, true_and]
    omega
  case placements =>
    intro pid p hne
    rw [hplacements, removeOwned_eq_some]
    exact and_iff_left hne
  case tables =>
    intro c' hne
    rw [himages, GoMap.getElem?_erase_ne _ hne]
  case windows =>
    intro winID win hne
    rw [wins_handleClientDisconnect_eq_some]
    exact and_iff_left hne
  case rest => rfl

/-- Without anything of the client there is nothing to do. -/
theorem handleClientDisconnect_eq_self (env : Env)
    (hplacements : ∀ (pid : UInt32) (p : Placement), e.placements[pid]? = some p → p.clientID ≠ c)
    (htable : e.clientImages[c]? = none)
    (hwins : ∀ (winID : Int64) (win : WinGeometry), e.wins[winID]? = some win →
      win.clientID ≠ c) :
    e.handleClientDisconnect env c = (e, []) := by
  -- neither loop finds anything of the client's
  have hloop : GoMap.rangeUpdate env.placementOrder
      (fun _ p => if p.clientID == c then (none, e.deleteRendered p) else (some p, []))
      e.placements = (e.placements, []) := by
    apply GoMap.rangeUpdate_eq_self
    intro pid p hp
    simp [hplacements pid p hp]
  have hloop' : GoMap.rangeUpdate (O := Action) env.winOrder
      (fun _ win => if win.clientID == c then (none, []) else (some win, [])) e.wins =
      (e.wins, []) := by
    apply GoMap.rangeUpdate_eq_self
    intro winID win hwin
    simp [hwins winID win hwin]
  have herase : e.clientImages.erase c = e.clientImages := by
    apply Std.ExtTreeMap.ext_getElem?
    intro c'
    by_cases hc : c' = c
    · subst hc
      rw [htable]
      simp
    · rw [GoMap.getElem?_erase_ne _ hc]
  unfold handleClientDisconnect removeOwned
  simp only [hloop, hloop', htable, herase]

/-- A second disconnect finds nothing to do. -/
theorem Cleaned.again {e' : Engine} {out : List Action} (h : e.Cleaned c e' out) (env : Env) :
    e'.handleClientDisconnect env c = (e', []) :=
  handleClientDisconnect_eq_self env h.noPlacement h.noTable h.noWindow

/-- In every state whose images are accounted for, `ClientDisconnect` cleans up one client and
    leaves the images accounted for, and a second one changes nothing. -/
theorem disconnect_cleans (h : e.Accounts) (hash128 : Data → Hash) (env : Env) (c : ClientID) :
    ∃ e' out, e.handle hash128 env (.clientDisconnect c) = some (e', out) ∧
      e.Cleaned c e' out ∧ e'.Accounts ∧
      ∀ env', e'.handle hash128 env' (.clientDisconnect c) = some (e', []) := by
  have hcleaned := cleaned_handleClientDisconnect h.wf env c
  refine ⟨_, _, rfl, hcleaned, ?_, ?_⟩
  · exact accounts_disconnect h _ (cache_handleClientDisconnect env e c) rfl
  · intro env'
    exact congrArg some (hcleaned.again env')

/-- One of two clients that share an image leaves: one reference goes. -/
theorem disconnect_cleans_sharing :
    ∃ (e e' : Engine) (out : List Action), e.Accounts ∧
      e.cache.view = [⟨Script.firstByte [7], 1, 2⟩] ∧
      e.handle Script.firstByte default (.clientDisconnect "a") = some (e', out) ∧
      e.Cleaned "a" e' out ∧ e'.cache.view = [⟨Script.firstByte [7], 1, 1⟩] ∧
      out = [.gfx (.delete 1 1 false)] := by
  have hrun := World.runs_of_exec Script.firstByte (.new true true true false 5)
    [Script.upload "a" [7], Script.upload "b" [7], Script.place "a" 1 Script.absolute,
      (default, .size ⟨24, 80, 0, 0⟩)] (by decide)
  have hacc := World.accounts_of_fresh hrun (World.fresh_of_nextCalls hrun (by decide))
  obtain ⟨e', out, hs, hcleaned, -⟩ := disconnect_cleans hacc Script.firstByte default "a"
  obtain ⟨rfl, rfl⟩ := Prod.mk.inj (Option.some.inj hs)
  exact ⟨_, _, _, hacc, by decide, rfl, hcleaned, by decide, by decide⟩

end Engine

end Kgd
