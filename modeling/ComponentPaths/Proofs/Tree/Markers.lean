/-
Markers of a component tree, by directory.

`markerAt` is what a tree says about a directory, given by its segments. A
tree is `Ordered` when at every node the children stand in strictly
ascending order of their segments, so that no segment is there twice.
Marking a directory keeps the order (`ordered_mark`), and on ordered trees
it is an update at one directory (`markerAt_mark`). The list of marked
directories holds exactly the marks (`mem_marked`).

A tree of manifests is made by marking alone. So a property that every mark
has when it is put down is a property of every mark of the finished tree
(`marked_ofManifests`).
-/
import ComponentPaths.Proofs.Symbolic.Segments
import ComponentPaths.Tree.Builder

namespace ComponentPaths

-- ========================================================= order of texts

namespace Text

/-- Of two names one is not after the other. -/
theorem notAfter_total {t u : Text} (h : notAfter t u = false) : notAfter u t = true := by
  induction t generalizing u with
  | nil => simp [notAfter] at h
  | cons c t ih =>
      cases u with
      | nil => rfl
      | cons d u =>
          by_cases hcd : c = d
          · subst hcd
            simp only [notAfter, if_true] at h ⊢
            exact ih h
          · simp only [notAfter, if_neg hcd, decide_eq_false_iff_not] at h
            simp only [notAfter, if_neg (Ne.symm hcd), decide_eq_true_eq]
            exact Std.lt_of_le_of_ne (Std.not_lt.1 h) (Ne.symm hcd)

/-- Names that are not after each other are the same. -/
theorem notAfter_antisymm {t u : Text} (h : notAfter t u = true)
    (h' : notAfter u t = true) : t = u := by
  induction t generalizing u with
  | nil =>
      cases u with
      | nil => rfl
      | cons d u => simp [notAfter] at h'
  | cons c t ih =>
      cases u with
      | nil => simp [notAfter] at h
      | cons d u =>
          by_cases hcd : c = d
          · subst hcd
            simp only [notAfter, if_true] at h h'
            rw [ih h h']
          · simp only [notAfter, if_neg hcd, decide_eq_true_eq] at h
            simp only [notAfter, if_neg (Ne.symm hcd), decide_eq_true_eq] at h'
            exact absurd (Std.lt_trans h h') (Std.lt_irrefl)

theorem notAfter_trans {t u v : Text} (h : notAfter t u = true)
    (h' : notAfter u v = true) : notAfter t v = true := by
  induction t generalizing u v with
  | nil => rfl
  | cons c t ih =>
      cases u with
      | nil => simp [notAfter] at h
      | cons d u =>
          cases v with
          | nil => simp [notAfter] at h'
          | cons e v =>
              by_cases hcd : c = d
              · subst hcd
                by_cases hce : c = e
                · subst hce
                  simp only [notAfter, if_true] at h h' ⊢
                  exact ih h h'
                · simp only [notAfter, if_neg hce] at h' ⊢
                  exact h'
              · simp only [notAfter, if_neg hcd, decide_eq_true_eq] at h
                by_cases hde : d = e
                · subst hde
                  simp only [notAfter, if_neg hcd, decide_eq_true_eq]
                  exact h
                · simp only [notAfter, if_neg hde, decide_eq_true_eq] at h'
                  have hlt := Std.lt_trans h h'
                  have hne : c ≠ e := fun heq => by
                    rw [heq] at hlt
                    exact Std.lt_irrefl hlt
                  simp only [notAfter, if_neg hne, decide_eq_true_eq]
                  exact hlt

/-- Strictly earlier in the order of texts. -/
def Before (t u : Text) : Prop :=
  notAfter t u = true ∧ t ≠ u

theorem Before.trans {t u v : Text} (h : Before t u) (h' : Before u v) : Before t v := by
  refine ⟨notAfter_trans h.1 h'.1, fun heq => ?_⟩
  subst heq
  exact h.2 (notAfter_antisymm h.1 h'.1)

end Text

namespace ComponentTree

-- ================================================================ children

section Children

variable {α : Type}

/-- Children in strictly ascending order of their segments. -/
def Ascending (children : List (Text × α)) : Prop :=
  children.Pairwise fun a b => Text.Before a.1 b.1

/-- A name before all others is not among them. -/
theorem lookup_eq_none_of_before {name : Text} {children : List (Text × α)}
    (h : ∀ c ∈ children, Text.Before name c.1) : children.lookup name = none := by
  rw [List.lookup_eq_none_iff]
  intro c hc
  simpa using (h c hc).2

/-- In ascending children, looking a segment up finds every entry. -/
theorem lookup_eq_some_iff {children : List (Text × α)}
    (h : Ascending children) {name : Text} {child : α} :
    children.lookup name = some child ↔ (name, child) ∈ children := by
  induction children with
  | nil => simp
  | cons c rest ih =>
      obtain ⟨other, sub⟩ := c
      obtain ⟨hfirst, hrest⟩ := List.pairwise_cons.1 h
      rw [List.lookup_cons, List.mem_cons]
      by_cases hn : name = other
      · subst hn
        have hnot : (name, child) ∉ rest := fun hmem => (hfirst _ hmem).2 rfl
        simp only [beq_self_eq_true, Option.some.injEq, Prod.mk.injEq, true_and,
          hnot, or_false]
        exact eq_comm
      · have hbeq : (name == other) = false := by simpa using hn
        rw [hbeq]
        simp only [Prod.mk.injEq, hn, false_and, false_or]
        exact ih hrest

/-- A change of one child leaves the others as they are. -/
theorem lookup_alterChild_ne {name other : Text} (h : other ≠ name)
    (change : Option α → α)
    (children : List (Text × α)) :
    (alterChild name change children).lookup other = children.lookup other := by
  have hbeq : (other == name) = false := by simpa using h
  induction children with
  | nil => simp [alterChild, List.lookup_cons, hbeq]
  | cons c rest ih =>
      obtain ⟨key, sub⟩ := c
      unfold alterChild
      split
      · rename_i hkey
        subst hkey
        simp [List.lookup_cons, hbeq]
      · split
        · simp [List.lookup_cons, hbeq]
        · simp only [List.lookup_cons, ih]

/-- The child itself is what the change makes of it. -/
theorem lookup_alterChild_self {name : Text} {children : List (Text × α)}
    (h : Ascending children) (change : Option α → α) :
    (alterChild name change children).lookup name
      = some (change (children.lookup name)) := by
  induction children with
  | nil => simp [alterChild]
  | cons c rest ih =>
      obtain ⟨key, sub⟩ := c
      obtain ⟨hfirst, hrest⟩ := List.pairwise_cons.1 h
      unfold alterChild
      split
      · rename_i hkey
        subst hkey
        simp
      · rename_i hkey
        have hbeq : (name == key) = false := by simpa using hkey
        split
        · -- the place of a new child: everything from here on comes later
          rename_i hna
          have hnone : rest.lookup name = none := by
            refine lookup_eq_none_of_before fun c hc => ?_
            exact Text.Before.trans ⟨hna, hkey⟩ (hfirst c hc)
          simp [List.lookup_cons, hbeq, hnone]
        · simp only [List.lookup_cons, hbeq]
          exact ih hrest

/-- Whose segments stand among the children after a change: the old ones and
the changed one. -/
theorem mem_alterChild {name : Text} {change : Option α → α}
    {children : List (Text × α)} {c : Text × α}
    (h : c ∈ alterChild name change children) :
    c ∈ children ∨ c.1 = name
      ∧ (c.2 = change none ∨ ∃ old, (name, old) ∈ children ∧ c.2 = change (some old)) := by
  induction children with
  | nil =>
      simp only [alterChild, List.mem_singleton] at h
      subst h
      exact Or.inr ⟨rfl, Or.inl rfl⟩
  | cons d rest ih =>
      obtain ⟨key, sub⟩ := d
      unfold alterChild at h
      split at h
      · rename_i hkey
        subst hkey
        rcases List.mem_cons.1 h with rfl | h
        · exact Or.inr ⟨rfl, Or.inr ⟨sub, List.mem_cons_self, rfl⟩⟩
        · exact Or.inl (List.mem_cons_of_mem _ h)
      · split at h
        · rcases List.mem_cons.1 h with rfl | h
          · exact Or.inr ⟨rfl, Or.inl rfl⟩
          · exact Or.inl h
        · rcases List.mem_cons.1 h with rfl | h
          · exact Or.inl List.mem_cons_self
          · rcases ih h with h | ⟨hname, h | ⟨old, hold, h⟩⟩
            · exact Or.inl (List.mem_cons_of_mem _ h)
            · exact Or.inr ⟨hname, Or.inl h⟩
            · exact Or.inr ⟨hname, Or.inr ⟨old, List.mem_cons_of_mem _ hold, h⟩⟩

/-- A change of a child keeps the order, even if the child is new. -/
theorem ascending_alterChild {name : Text} {children : List (Text × α)}
    (h : Ascending children) (change : Option α → α) :
    Ascending (alterChild name change children) := by
  induction children with
  | nil => exact List.pairwise_singleton _ _
  | cons c rest ih =>
      obtain ⟨key, sub⟩ := c
      obtain ⟨hfirst, hrest⟩ := List.pairwise_cons.1 h
      unfold alterChild
      split
      · exact List.pairwise_cons.2 ⟨fun d hd => hfirst d hd, hrest⟩
      · rename_i hkey
        split
        · rename_i hna
          refine List.pairwise_cons.2 ⟨fun d hd => ?_, h⟩
          rcases List.mem_cons.1 hd with rfl | hd
          · exact ⟨hna, hkey⟩
          · exact Text.Before.trans ⟨hna, hkey⟩ (hfirst d hd)
        · rename_i hna
          refine List.pairwise_cons.2 ⟨fun d hd => ?_, ih hrest⟩
          rcases mem_alterChild hd with hd | ⟨hname, -⟩
          · exact hfirst d hd
          · rw [hname]
            refine ⟨Text.notAfter_total (by simpa using hna), Ne.symm hkey⟩

end Children

-- =========================================================== ordered trees

/-- Every node has its children in ascending order. -/
inductive Ordered : ComponentTree → Prop
  | node {marker : Option Marker} {children : List (Text × ComponentTree)}
      (ascending : Ascending children) (below : ∀ c ∈ children, Ordered c.2) :
      Ordered (.node marker children)

/-- A tree without nodes is in order. -/
theorem ordered_empty : Ordered empty :=
  .node List.Pairwise.nil fun _ hc => (by cases hc)

/-- A mark keeps a tree in order. -/
theorem ordered_mark {tree : ComponentTree} (h : Ordered tree) (path : List Text)
    (marker : Marker) : Ordered (mark path marker tree) := by
  induction path generalizing tree with
  | nil =>
      cases h with
      | node ascending below => exact .node ascending below
  | cons name rest ih =>
      cases h with
      | node ascending below =>
          refine .node (ascending_alterChild ascending _) fun c hc => ?_
          rcases mem_alterChild hc with hc | ⟨-, hc | ⟨old, hold, hc⟩⟩
          · exact below c hc
          · rw [hc]
            exact ih ordered_empty
          · rw [hc]
            exact ih (below _ hold)

-- =============================================================== markerAt

/-- The marker of a directory, given by its segments. -/
def markerAt (tree : ComponentTree) (path : List Text) : Option Marker :=
  (descend? path tree).bind marker?

/-- A way down can be gone in two parts. -/
theorem descend?_append (front back : List Text) (tree : ComponentTree) :
    descend? (front ++ back) tree = (descend? front tree).bind (descend? back) := by
  induction front generalizing tree with
  | nil => rfl
  | cons name front ih =>
      simp only [List.cons_append, descend?]
      cases tree.child? name with
      | none => rfl
      | some child => exact ih child

/-- What is marked at a path is the mark of the node there. -/
theorem markerAt_of_descend? {tree node : ComponentTree} {path : List Text}
    (h : descend? path tree = some node) : tree.markerAt path = node.marker? := by
  unfold markerAt
  rw [h]
  rfl

theorem markerAt_cons (tree : ComponentTree) (name : Text) (rest : List Text) :
    tree.markerAt (name :: rest)
      = (tree.child? name).bind fun child => child.markerAt rest := by
  unfold markerAt
  rw [descend?, Option.bind_assoc]

theorem markerAt_empty (path : List Text) : empty.markerAt path = none := by
  cases path <;> rfl

/-- Marking a directory changes what the tree says there, and nothing else. -/
theorem markerAt_mark {tree : ComponentTree} (h : Ordered tree) (path : List Text)
    (marker : Marker) (dir : List Text) :
    (mark path marker tree).markerAt dir
      = if dir = path then some marker else tree.markerAt dir := by
  induction path generalizing tree dir with
  | nil =>
      cases h with
      | node ascending below =>
          cases dir with
          | nil => rfl
          | cons name dir => rfl
  | cons name rest ih =>
      cases h with
      | @node old children ascending below =>
          cases dir with
          | nil => rfl
          | cons other dir =>
              rw [markerAt_cons, markerAt_cons]
              simp only [mark, child?, ComponentTree.children]
              by_cases hn : other = name
              · subst hn
                rw [lookup_alterChild_self ascending, Option.bind_some]
                cases hsub : children.lookup other with
                | none =>
                    rw [Option.getD_none, ih ordered_empty, markerAt_empty]
                    simp
                | some sub =>
                    have hmem := (lookup_eq_some_iff ascending).1 hsub
                    rw [Option.getD_some, ih (below _ hmem)]
                    simp
              · rw [lookup_alterChild_ne hn, if_neg (by simp [hn])]

mutual

/-- The marked directories of a tree at `path` are its marks, with `path` in
front. -/
theorem mem_markedFrom (tree : ComponentTree) (h : Ordered tree) (path dir : List Text)
    (marker : Marker) :
    (dir, marker) ∈ markedFrom path tree
      ↔ ∃ rest, dir = path ++ rest ∧ tree.markerAt rest = some marker := by
  match tree, h with
  | .node own children, .node ascending below =>
      simp only [markedFrom, List.mem_append, List.mem_map, Option.mem_toList,
        mem_markedBelow children ascending below path dir marker, Prod.mk.injEq]
      constructor
      · rintro (⟨m, hm, hp, rfl⟩ | ⟨name, rest, hdir, hmark⟩)
        · exact ⟨[], by simp [hp], hm⟩
        · exact ⟨name :: rest, hdir, by rw [markerAt_cons]; exact hmark⟩
      · rintro ⟨rest, hdir, hmark⟩
        cases rest with
        | nil => exact Or.inl ⟨marker, hmark, by simp [hdir], rfl⟩
        | cons name rest =>
            rw [markerAt_cons] at hmark
            exact Or.inr ⟨name, rest, hdir, hmark⟩

/-- The list of marks below a node has each mark of each child. -/
theorem mem_markedBelow (children : List (Text × ComponentTree))
    (ascending : Ascending children) (below : ∀ c ∈ children, Ordered c.2)
    (path dir : List Text) (marker : Marker) :
    (dir, marker) ∈ markedBelow path children
      ↔ ∃ name rest, dir = path ++ name :: rest
        ∧ ((children.lookup name).bind fun t => t.markerAt rest) = some marker := by
  match children with
  | [] => simp [markedBelow]
  | (name, tree) :: others =>
      obtain ⟨hfirst, hothers⟩ := List.pairwise_cons.1 ascending
      have hbelow : ∀ c ∈ others, Ordered c.2 := fun c hc =>
        below c (List.mem_cons_of_mem _ hc)
      simp only [markedBelow, List.mem_append,
        mem_markedFrom tree (below (name, tree) List.mem_cons_self) (path ++ [name]),
        mem_markedBelow others hothers hbelow path dir marker]
      constructor
      · rintro (⟨rest, hdir, hmark⟩ | ⟨other, rest, hdir, hmark⟩)
        · refine ⟨name, rest, by simp [hdir], ?_⟩
          simpa [List.lookup_cons] using hmark
        · -- a later child has another segment, so the first is passed over
          obtain ⟨sub, hsub, -⟩ := Option.bind_eq_some_iff.1 hmark
          have hmem := (lookup_eq_some_iff hothers).1 hsub
          have hne : (other == name) = false := by
            simpa using Ne.symm (hfirst _ hmem).2
          refine ⟨other, rest, hdir, ?_⟩
          simpa [List.lookup_cons, hne] using hmark
      · rintro ⟨other, rest, hdir, hmark⟩
        by_cases hn : other = name
        · subst hn
          exact Or.inl ⟨rest, by simp [hdir], by simpa [List.lookup_cons] using hmark⟩
        · have hbeq : (other == name) = false := by simpa using hn
          exact Or.inr ⟨other, rest, hdir, by simpa [List.lookup_cons, hbeq] using hmark⟩

end

/-- The list of marked directories holds exactly the marks of the tree. -/
theorem mem_marked {tree : ComponentTree} (h : Ordered tree) {dir : List Text}
    {marker : Marker} : (dir, marker) ∈ tree.marked ↔ tree.markerAt dir = some marker := by
  unfold marked
  rw [mem_markedFrom tree h]
  simp

-- ========================================================= trees as built

/-- An ordered tree all of whose marks have a property. -/
structure Marked (P : List Text → Marker → Prop) (tree : ComponentTree) : Prop where
  ordered : Ordered tree
  marks : ∀ dir marker, tree.markerAt dir = some marker → P dir marker

variable {P : List Text → Marker → Prop}

theorem marked_empty : Marked P empty :=
  ⟨ordered_empty, fun dir marker h => by simp [markerAt_empty] at h⟩

/-- An insertion adds one mark to those there are. -/
theorem Marked.insert {tree : ComponentTree} (h : Marked P tree) {dir : Text}
    {marker : Marker} (hp : P (splitDir dir) marker) : Marked P (tree.insert dir marker) := by
  refine ⟨ordered_mark h.ordered _ _, fun dir' marker' hm => ?_⟩
  unfold ComponentTree.insert at hm
  rw [markerAt_mark h.ordered] at hm
  split at hm
  · rename_i hdir
    rw [hdir, ← Option.some.inj hm]
    exact hp
  · exact h.marks dir' marker' hm

/-- Marks that may be put down while a tree is built: the core library, the
subsystems of the primary manifest, and plugin types and plugins anywhere.
A plugin has its name at the end of its directory. -/
structure Admits (P : List Text → Marker → Prop) (primary : Manifest) : Prop where
  library : P (splitDir coreLibraryDir) (.subsystemRoot none)
  subsystem : ∀ name dir, (name, some dir) ∈ primary.subsystems →
    P (splitDir dir) (.subsystemRoot (some name))
  pluginType : ∀ type dir, P (splitDir dir) (.pluginTypeRoot type)
  plugin : ∀ type typeDir name, P (splitDir (typeDir ++ '/' :: name)) (.pluginRoot type name)

/-- What a manifest admits holds of all marks of its tree. -/
theorem marked_ofManifest {primary : Manifest} (h : Admits P primary) :
    Marked P (TreeBuilder.ofManifest primary).tree := by
  unfold TreeBuilder.ofManifest
  -- one fold for the types, over one for the subsystems, over the library
  refine List.foldlRecOn primary.pluginTypes _ ?_ fun tree ht entry _ =>
    ht.insert (h.pluginType entry.1 entry.2)
  refine List.foldlRecOn primary.subsystems _ (marked_empty.insert h.library) ?_
  rintro tree ht ⟨name, dir?⟩ hmem
  cases dir? with
  | none => exact ht
  | some dir => exact ht.insert (h.subsystem name dir hmem)

/-- And a graft keeps it. -/
theorem marked_graft {primary : Manifest} (h : Admits P primary) {builder : TreeBuilder}
    (hb : Marked P builder.tree) (type name : Text) (manifest : SubpluginManifest) :
    Marked P (builder.graft type name manifest).1.tree := by
  unfold TreeBuilder.graft
  split
  · exact hb
  · dsimp only
    refine List.foldlRecOn (motive := fun b : TreeBuilder => Marked P b.tree) _ _
      (hb.insert (h.plugin type _ name)) ?_
    intro b hb' entry _
    exact hb'.insert (h.pluginType entry.1 entry.2)

/-- What holds of every mark as it is put down holds of the finished tree. -/
theorem marked_ofManifests {primary : Manifest} (h : Admits P primary)
    (plugins : List PluginManifest) : Marked P (ofManifests primary plugins) := by
  unfold ofManifests
  refine List.foldlRecOn (motive := fun b : TreeBuilder => Marked P b.tree) plugins _
    (marked_ofManifest h) ?_
  intro b hb p _
  exact marked_graft h hb p.type p.name p.manifest

/-- The tree of manifests is in order. -/
theorem ordered_ofManifests (primary : Manifest) (plugins : List PluginManifest) :
    Ordered (ofManifests primary plugins) :=
  (marked_ofManifests (P := fun _ _ => True)
    ⟨trivial, fun _ _ _ => trivial, fun _ _ => trivial, fun _ _ _ => trivial⟩ plugins).ordered

end ComponentTree

end ComponentPaths
