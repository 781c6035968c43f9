import Mathlib.Data.List.Basic

/-!
# Paths with slashes

A path is text. Its components are what lies between the slashes; cleaning it resolves `.` and `..`
without looking at a file system.

## Key results

- `PosixPath.components_render`: the components of a cleaned path are those that remain
- `PosixPath.settled_resolve`: of these, every `..` is at the front
- `PosixPath.clean_ne_of_name`: cleaning never turns one name into another
- `PosixPath.clean_eq_iff_leaves`: two paths that differ in one name are cleaned alike exactly if
  what follows the name leads out of it
-/

/-- A path, or one of its components. -/
abbrev PosixPath := List Char

namespace PosixPath

def dot : PosixPath := ['.']

def dotdot : PosixPath := ['.', '.']

/-- A component that stands for an entry of a directory. -/
def IsName (c : PosixPath) : Prop := c ≠ [] ∧ c ≠ dot ∧ c ≠ dotdot

instance (c : PosixPath) : Decidable (IsName c) :=
  inferInstanceAs (Decidable (_ ∧ _))

/-- What lies between the slashes. -/
def components (s : PosixPath) : List PosixPath := s.splitOn '/'

/-- A component is not empty and not `.`: it takes part in resolving. -/
def Counts (c : PosixPath) : Bool := c != [] && c != dot

/-- Follow a component from a stack of those that remain, the last one first. -/
def step (rooted : Bool) (stack : List PosixPath) (c : PosixPath) : List PosixPath :=
  if c = [] ∨ c = dot then stack
  else if c = dotdot then
    match stack with
    | [] => if rooted then [] else [c]
    | top :: below => if top = dotdot then c :: stack else below
  else c :: stack

/-- The components that remain, the last one first. -/
def resolve (rooted : Bool) (cs : List PosixPath) : List PosixPath := cs.foldl (step rooted) []

/-- The path of the components that remain. -/
def render (rooted : Bool) (stack : List PosixPath) : PosixPath :=
  match stack with
  | [] => if rooted then ['/'] else dot
  | top :: below => (if rooted then ['/'] else []) ++ ['/'].intercalate (top :: below).reverse

def isRooted (s : PosixPath) : Bool := s.head? == some '/'

/-- Go's `filepath.Clean`. -/
def clean (s : PosixPath) : PosixPath := render (isRooted s) (resolve (isRooted s) (components s))

/-- The elements that are not empty, with slashes between them. -/
def joined (elems : List PosixPath) : PosixPath := ['/'].intercalate (elems.filter (· != []))

/-! ## Stacks -/

/-- Every component counts, there is no slash in it, and below a `..` there is only `..`. -/
structure Settled (stack : List PosixPath) : Prop where
  counts : ∀ c ∈ stack, c ≠ [] ∧ c ≠ dot
  noSlash : ∀ c ∈ stack, '/' ∉ c
  front : stack.Pairwise fun above below => above = dotdot → below = dotdot

variable {rooted : Bool} {stack : List PosixPath} {c : PosixPath}

/-- A name is entered. -/
theorem step_of_name (h : IsName c) : step rooted stack c = c :: stack := by
  unfold step
  rw [if_neg (by simp [h.1, h.2.1]), if_neg h.2.2]

/-- Empty components and `.` lead nowhere. -/
theorem step_of_not_counts (h : ¬ Counts c = true) : step rooted stack c = stack := by
  unfold step
  rw [if_pos (by simpa [Counts, or_iff_not_imp_left] using h)]

/-- The root is settled. -/
theorem Settled.nil : Settled [] := ⟨nofun, nofun, List.Pairwise.nil⟩

/-- Following a component keeps a stack settled. -/
theorem Settled.step (h : Settled stack) (hc : '/' ∉ c) : Settled (step rooted stack c) := by
  unfold PosixPath.step
  split
  · exact h
  rename_i hcounts
  rw [not_or] at hcounts
  split
  · rename_i hup
    cases stack with
    | nil =>
      dsimp only
      split
      · exact Settled.nil
      · exact ⟨by simpa using hcounts, by simpa using hc, by simp⟩
    | cons top below =>
      dsimp only
      split
      · rename_i htop
        -- one more level up
        have hbelow := (List.pairwise_cons.mp h.front).1
        refine ⟨List.forall_mem_cons.mpr ⟨hcounts, h.counts⟩,
          List.forall_mem_cons.mpr ⟨hc, h.noSlash⟩, List.pairwise_cons.mpr ⟨?_, h.front⟩⟩
        intro b hb _
        rcases List.mem_cons.mp hb with rfl | hb
        · exact htop
        · exact hbelow b hb htop
      · exact ⟨(List.forall_mem_cons.mp h.counts).2, (List.forall_mem_cons.mp h.noSlash).2,
          (List.pairwise_cons.mp h.front).2⟩
  · rename_i hname
    exact ⟨List.forall_mem_cons.mpr ⟨hcounts, h.counts⟩,
      List.forall_mem_cons.mpr ⟨hc, h.noSlash⟩,
      List.pairwise_cons.mpr ⟨fun _ _ hup => absurd hup hname, h.front⟩⟩

/-- So does following components one after another. -/
theorem settled_foldl {cs : List PosixPath} (h : Settled stack) (hcs : ∀ c ∈ cs, '/' ∉ c) :
    Settled (cs.foldl (PosixPath.step rooted) stack) := by
  induction cs generalizing stack with
  | nil => exact h
  | cons c cs ih =>
    obtain ⟨hc, hrest⟩ := List.forall_mem_cons.mp hcs
    exact ih (h.step hc) hrest

/-! ## Components -/

/-- No component has a slash in it. -/
theorem slash_not_mem_components (s : PosixPath) : ∀ c ∈ components s, '/' ∉ c := by
  rw [components]
  induction s with
  | nil => simp
  | cons x s ih =>
    rw [List.splitOn_cons_eq_if_modifyHead]
    split
    · exact List.forall_mem_cons.mpr ⟨nofun, ih⟩
    · rename_i hx
      -- not a slash: it goes to the front of the first component
      cases hs : s.splitOn '/' with
      | nil => exact nofun
      | cons c cs =>
        rw [hs] at ih
        obtain ⟨hc, hcs⟩ := List.forall_mem_cons.mp ih
        refine List.forall_mem_cons.mpr ⟨?_, hcs⟩
        rw [List.mem_cons, not_or]
        exact ⟨fun heq => hx (beq_iff_eq.mpr heq.symm), hc⟩

/-- Every `..` that remains is at the front. -/
theorem settled_resolve (rooted : Bool) (s : PosixPath) : Settled (resolve rooted (components s)) :=
  settled_foldl Settled.nil (slash_not_mem_components s)

/-- The components of two paths with a slash between them are those of the one and of the other. -/
theorem components_append_slash (s t : PosixPath) :
    components (s ++ '/' :: t) = components s ++ components t :=
  List.splitOn_append_cons_self s t

/-- What is put before a path is put before its first component. -/
theorem components_append_of_not_mem {p : PosixPath} (hp : '/' ∉ p) (s : PosixPath) :
    components (p ++ s) = (components s).modifyHead (p ++ ·) := by
  induction p with
  | nil =>
    cases hs : components s with
    | nil => simpa using hs
    | cons c cs => simpa using hs
  | cons x p ih =>
    rw [List.mem_cons, not_or] at hp
    -- nothing in `p` splits, so it all joins the first component
    have hx : ¬ (x == '/') = true := fun heq => hp.1 (eq_of_beq heq).symm
    rw [components, List.cons_append, List.splitOn_cons_eq_if_modifyHead, if_neg hx]
    show (components (p ++ s)).modifyHead (x :: ·) = _
    rw [ih hp.2, List.modifyHead_modifyHead]
    rfl

/-- A directory that is empty is left out. -/
theorem joined_pair {d n : PosixPath} (hn : n ≠ []) :
    joined [d, n] = if d = [] then n else d ++ '/' :: n := by
  by_cases hd : d = []
  · simp [joined, hd, hn]
  · simp [joined, hd, hn, List.intercalate]

/-- The components of a name in a directory end with those of the name. -/
theorem components_joined {d : PosixPath} :
    ∃ front, ∀ n, n ≠ [] → components (joined [d, n]) = front ++ components n := by
  by_cases hd : d = []
  · exact ⟨[], fun n hn => by rw [joined_pair hn, if_pos hd, List.nil_append]⟩
  · exact ⟨components d, fun n hn => by
      rw [joined_pair hn, if_neg hd, components_append_slash]⟩

/-- The components of a cleaned path are those that remain. -/
theorem components_render (h : Settled stack) (hne : stack ≠ []) :
    components (render rooted stack) = (if rooted then [[]] else []) ++ stack.reverse := by
  have hreverse : stack.reverse ≠ [] := fun heq => hne (List.reverse_eq_nil_iff.mp heq)
  have hslash : ∀ c ∈ stack.reverse, '/' ∉ c := fun c hc => h.noSlash c (List.mem_reverse.mp hc)
  -- joining and splitting again gives the names, as none holds a slash
  have hsplit : (['/'].intercalate stack.reverse).splitOn '/' = stack.reverse :=
    List.splitOn_intercalate '/' hslash hreverse
  cases stack with
  | nil => exact absurd rfl hne
  | cons top below =>
    rw [render, components]
    cases rooted with
    | false => exact hsplit
    | true =>
      -- the slash in front is an empty component
      show ('/' :: ['/'].intercalate (top :: below).reverse).splitOn '/' = _
      rw [List.splitOn_cons_eq_if_modifyHead, if_pos rfl, hsplit]
      rfl

/-! ## Names -/

/-- Only the components that count are followed. -/
theorem foldl_counts (cs : List PosixPath) :
    cs.foldl (step rooted) stack = (cs.filter Counts).foldl (step rooted) stack := by
  induction cs generalizing stack with
  | nil => rfl
  | cons c cs ih =>
    rw [List.foldl_cons, List.filter_cons]
    split
    · exact ih
    · rename_i hc
      rw [step_of_not_counts hc, ih]

/-- Names are entered one after another. -/
theorem foldl_names {cs : List PosixPath} (h : ∀ c ∈ cs, IsName c) :
    cs.foldl (step rooted) stack = cs.reverse ++ stack := by
  induction cs generalizing stack with
  | nil => rfl
  | cons c cs ih =>
    obtain ⟨hc, hcs⟩ := List.forall_mem_cons.mp h
    rw [List.foldl_cons, step_of_name hc, ih hcs, List.reverse_cons, List.append_assoc]
    rfl

theorem counts_of_name (h : IsName c) : Counts c = true := by
  simp [Counts, h.1, h.2.1]

variable {s t : PosixPath} {front front' rest rest' : List PosixPath} {c' : PosixPath}

/-- In a cleaned path, what follows a name is names. -/
theorem names_of_clean (h : clean s = t) (ht : components t = front ++ c :: rest) (hc : IsName c) :
    ∃ below, resolve (isRooted s) (components s) = rest.reverse ++ c :: below ∧
      ∀ b ∈ rest, IsName b := by
  have hsettled := settled_resolve (isRooted s) s
  rw [clean] at h
  generalize hstack : resolve (isRooted s) (components s) = stack at h hsettled
  have hmem : c ∈ components t := by
    rw [ht]
    exact List.mem_append_right _ List.mem_cons_self
  have hne : stack ≠ [] := by
    intro hnil
    rw [hnil] at h
    rw [← h] at hmem
    cases hr : isRooted s with
    | true =>
      rw [hr] at hmem
      have hroot : components ['/'] = [[], []] := by decide
      rw [render, if_pos rfl, hroot] at hmem
      obtain rfl : c = [] := by simpa using hmem
      exact hc.1 rfl
    | false =>
      rw [hr] at hmem
      have hdot : components dot = [dot] := by decide
      rw [render, if_neg Bool.false_ne_true, hdot] at hmem
      obtain rfl : c = dot := by simpa using hmem
      exact hc.2.1 rfl
  rw [← h, components_render hsettled hne] at ht
  -- the name is not the empty component before the root
  obtain ⟨front', hrev⟩ : ∃ front', stack.reverse = front' ++ c :: rest := by
    cases hr : isRooted s with
    | false =>
      rw [hr] at ht
      exact ⟨front, ht⟩
    | true =>
      rw [hr] at ht
      cases front with
      | nil => exact absurd (List.cons.inj ht).1.symm hc.1
      | cons a front => exact ⟨front, (List.cons.inj ht).2⟩
  have hstack' : stack = rest.reverse ++ c :: front'.reverse := by
    rw [← List.reverse_reverse stack, hrev]
    simp
  refine ⟨front'.reverse, hstack', fun b hb => ?_⟩
  have hb' : b ∈ stack := by
    rw [hstack']
    exact List.mem_append_left _ (List.mem_reverse.mpr hb)
  have hfront := hsettled.front
  rw [hstack', List.pairwise_append] at hfront
  have hup := hfront.2.2 b (List.mem_reverse.mpr hb) c List.mem_cons_self
  exact ⟨(hsettled.counts b hb').1, (hsettled.counts b hb').2, fun heq => hc.2.2 (hup heq)⟩

/-- Cleaning never turns one name into another that the same components follow. -/
theorem clean_ne_of_name (hs : components s = front' ++ c' :: rest')
    (ht : components t = front ++ c :: rest) (hrest : rest.filter Counts = rest'.filter Counts)
    (hc : IsName c) (hc' : IsName c') (hne : c' ≠ c) : clean s ≠ t := by
  intro heq
  obtain ⟨below, hstack, hnames⟩ := names_of_clean heq ht hc
  have hfilter : rest.filter Counts = rest :=
    List.filter_eq_self.mpr fun b hb => counts_of_name (hnames b hb)
  rw [resolve, hs, List.foldl_append, List.foldl_cons, step_of_name hc', foldl_counts, ← hrest,
    hfilter, foldl_names hnames] at hstack
  exact hne (List.cons.inj (List.append_cancel_left hstack)).1

/-! ## Leaving a directory -/

/-- From so many names above a directory, the components lead out of it. -/
def leaves : Nat → List PosixPath → Bool
  | _, [] => false
  | n, c :: cs =>
    if c = [] ∨ c = dot then leaves n cs
    else if c = dotdot then
      match n with
      | 0 => true
      | n + 1 => leaves n cs
    else leaves (n + 1) cs

/-- Components that lead out of a directory do not remember its name. -/
theorem foldl_leaves {cs names : List PosixPath} (hnames : ∀ c ∈ names, IsName c)
    (h : leaves names.length cs = true) (hc : IsName c) (hc' : IsName c') :
    cs.foldl (step rooted) (names ++ c :: stack) =
      cs.foldl (step rooted) (names ++ c' :: stack) := by
  induction cs generalizing names with
  | nil => exact nomatch h
  | cons x cs ih =>
    rw [leaves.eq_def] at h
    dsimp only at h
    rw [List.foldl_cons, List.foldl_cons]
    by_cases hx : x = [] ∨ x = dot
    · rw [if_pos hx] at h
      simp only [step, if_pos hx]
      exact ih hnames h
    rw [if_neg hx] at h
    by_cases hup : x = dotdot
    · rw [if_pos hup] at h
      cases names with
      | nil =>
        -- the name itself is left, whichever of the two it is
        simp only [step, if_neg hx, if_pos hup, List.nil_append, if_neg hc.2.2, if_neg hc'.2.2]
      | cons name names =>
        obtain ⟨hname, hrest⟩ := List.forall_mem_cons.mp hnames
        simp only [step, if_neg hx, if_pos hup, List.cons_append, if_neg hname.2.2]
        exact ih hrest h
    · rw [if_neg hup] at h
      -- one more name to leave before the components lead out
      have hname : IsName x := ⟨fun heq => hx (.inl heq), fun heq => hx (.inr heq), hup⟩
      rw [step_of_name hname, step_of_name hname]
      exact ih (List.forall_mem_cons.mpr ⟨hname, hnames⟩) h

/-- Components that stay in a directory keep its name. -/
theorem foldl_stays {cs names : List PosixPath} (hnames : ∀ c ∈ names, IsName c)
    (h : leaves names.length cs = false) :
    ∃ names', ∀ c, IsName c →
      cs.foldl (step rooted) (names ++ c :: stack) = names' ++ c :: stack := by
  induction cs generalizing names with
  | nil => exact ⟨names, fun _ _ => rfl⟩
  | cons x cs ih =>
    rw [leaves.eq_def] at h
    dsimp only at h
    simp only [List.foldl_cons]
    by_cases hx : x = [] ∨ x = dot
    · rw [if_pos hx] at h
      simp only [step, if_pos hx]
      exact ih hnames h
    rw [if_neg hx] at h
    by_cases hup : x = dotdot
    · rw [if_pos hup] at h
      cases names with
      -- the name would be left here, and the components do not lead out
      | nil => exact nomatch h
      | cons name names =>
        obtain ⟨hname, hrest⟩ := List.forall_mem_cons.mp hnames
        simp only [step, if_neg hx, if_pos hup, List.cons_append, if_neg hname.2.2]
        exact ih hrest h
    · rw [if_neg hup] at h
      have hname : IsName x := ⟨fun heq => hx (.inl heq), fun heq => hx (.inr heq), hup⟩
      simp only [step_of_name hname]
      exact ih (List.forall_mem_cons.mpr ⟨hname, hnames⟩) h

/-- A settled stack that is not empty is known from its path. -/
theorem render_inj {stack' : List PosixPath} (h : Settled stack) (h' : Settled stack')
    (hne : stack ≠ []) (hne' : stack' ≠ []) (heq : render rooted stack = render rooted stack') :
    stack = stack' := by
  have hcomponents := congrArg components heq
  rw [components_render h hne, components_render h' hne'] at hcomponents
  exact List.reverse_injective (List.append_cancel_left hcomponents)

/-- Two paths that differ in one name are cleaned alike exactly if what follows leads out of it. -/
theorem clean_eq_iff_leaves (hroot : isRooted s = isRooted t)
    (hs : components s = front ++ c :: rest) (ht : components t = front ++ c' :: rest)
    (hc : IsName c) (hc' : IsName c') (hne : c ≠ c') :
    clean s = clean t ↔ leaves 0 rest = true := by
  have hresolve : ∀ x, IsName x → resolve (isRooted t) (front ++ x :: rest) =
      rest.foldl (step (isRooted t)) (x :: front.foldl (step (isRooted t)) []) := by
    intro x hx
    rw [resolve, List.foldl_append, List.foldl_cons, step_of_name hx]
  constructor
  · intro heq
    by_contra hstay
    -- if the rest stays inside, both names remain at the same place
    obtain ⟨names, hnames⟩ : ∃ names, ∀ x, IsName x →
        rest.foldl (step (isRooted t)) ([] ++ x :: front.foldl (step (isRooted t)) []) =
          names ++ x :: front.foldl (step (isRooted t)) [] :=
      foldl_stays nofun (Bool.not_eq_true _ ▸ hstay)
    have hleft := (hresolve c hc).trans (hnames c hc)
    have hright := (hresolve c' hc').trans (hnames c' hc')
    have hsettled := settled_resolve (isRooted t) s
    have hsettled' := settled_resolve (isRooted t) t
    rw [clean, clean, hroot, hs, ht, hleft, hright] at heq
    rw [hs, hleft] at hsettled
    rw [ht, hright] at hsettled'
    have hstack := render_inj hsettled hsettled' (by simp) (by simp) heq
    exact hne (List.cons.inj (List.append_cancel_left hstack)).1
  · intro hleave
    have hnames : rest.foldl (step (isRooted t)) ([] ++ c :: front.foldl (step (isRooted t)) []) =
        rest.foldl (step (isRooted t)) ([] ++ c' :: front.foldl (step (isRooted t)) []) :=
      foldl_leaves nofun hleave hc hc'
    rw [clean, clean, hroot, hs, ht, hresolve c hc, hresolve c' hc']
    exact congrArg _ hnames

end PosixPath
