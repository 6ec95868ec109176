/-
A tree is a map from directories to markers in which the last writer wins.

The map of a sequence of insertions needs no tree. A directory is its
segments, its marker is the one of the last insertion into it
(`lastMarker?`), and it is there at all if some insertion leads to it or
through it. The tree of the sequence (`insertAll`) answers the same on both
counts, and its list of marked directories is the map written out: one entry
for every directory with a marker, in lexicographic order of the segments. Into a
tree that is there already the insertions go in the same way (`insertInto`), and
where they say nothing, it answers as before (`markerAt_insertInto`).

Each of the three is one fact about a single mark, carried along the
sequence from the front. What `mark` does to the markers is known already
(`markerAt_mark`); what it does to the nodes is `isSome_descend?_mark`. Nodes
and markers are all there is to an ordered tree (`eq_of_markerAt`). The order is
no matter of insertions but of the shape of the tree: a directory comes before
everything below it, and what is below one child comes before what is below the
next (`pairwise_markedFrom`).
-/
import Mathlib.Data.List.Induction
import Mathlib.Data.List.Nodup
import ComponentPaths.Proofs.Tree.Markers

namespace ComponentPaths

-- ========================================================= order of texts

namespace Text

/-- The order of texts is the lexicographic one. -/
theorem before_iff_lex {t u : Text} : Before t u ↔ List.Lex (· < ·) t u := by
  unfold Before
  induction t generalizing u with
  | nil =>
      cases u with
      | nil =>
          constructor
          · rintro ⟨-, hne⟩
            exact absurd rfl hne
          · intro h
            cases h
      | cons d u => exact ⟨fun _ => .nil, fun _ => ⟨rfl, by simp⟩⟩
  | cons c t ih =>
      cases u with
      | nil =>
          constructor
          · rintro ⟨h, -⟩
            simp [notAfter] at h
          · intro h
            cases h
      | cons d u =>
          by_cases hcd : c = d
          · subst hcd
            simp only [notAfter, if_true, ne_eq, List.cons.injEq, true_and]
            rw [show (notAfter t u = true ∧ ¬t = u) ↔ List.Lex (· < ·) t u from ih]
            constructor
            · exact .cons
            · intro h
              cases h with
              | cons h => exact h
              | rel hlt => exact absurd hlt Std.lt_irrefl
          · simp only [notAfter, hcd, if_false, decide_eq_true_eq, ne_eq, List.cons.injEq,
              false_and, not_false_eq_true, and_true]
            constructor
            · exact .rel
            · intro h
              cases h with
              | cons h => exact absurd rfl hcd
              | rel hlt => exact hlt

end Text

namespace ComponentTree

/-- Directories in lexicographic order of their segments. -/
def PathBefore : List Text → List Text → Prop :=
  List.Lex (List.Lex (· < ·))

theorem pathBefore_append (path : List Text) (name : Text) (rest : List Text) :
    PathBefore path (path ++ name :: rest) := by
  induction path with
  | nil => exact .nil
  | cons s path ih => exact .cons ih

/-- Where two ways part, the segments there decide. -/
theorem pathBefore_of_before (path : List Text) {name other : Text}
    (h : Text.Before name other) (rest rest' : List Text) :
    PathBefore (path ++ name :: rest) (path ++ other :: rest') := by
  induction path with
  | nil => exact .rel (Text.before_iff_lex.1 h)
  | cons s path ih => exact .cons ih

-- ============================================================== in order

mutual

/-- Marked directories are listed in ascending order. -/
theorem pairwise_markedFrom (tree : ComponentTree) (h : Ordered tree) (path : List Text) :
    (markedFrom path tree).Pairwise fun x y => PathBefore x.1 y.1 := by
  match tree, h with
  | .node own children, .node ascending below =>
      rw [markedFrom, List.pairwise_append]
      refine ⟨?_, pairwise_markedBelow children ascending below path, ?_⟩
      · cases own with
        | none => exact List.Pairwise.nil
        | some m => exact List.pairwise_singleton _ _
      · -- the directory itself comes before everything below it
        rintro x hx ⟨dir, marker⟩ hy
        obtain ⟨m, -, rfl⟩ := List.mem_map.1 hx
        obtain ⟨name, rest, rfl, -⟩ :=
          (mem_markedBelow children ascending below path dir marker).1 hy
        exact pathBefore_append path name rest

theorem pairwise_markedBelow (children : List (Text × ComponentTree))
    (ascending : Ascending children) (below : ∀ c ∈ children, Ordered c.2)
    (path : List Text) :
    (markedBelow path children).Pairwise fun x y => PathBefore x.1 y.1 := by
  match children with
  | [] => exact List.Pairwise.nil
  | (name, tree) :: others =>
      obtain ⟨hfirst, hothers⟩ := List.pairwise_cons.1 ascending
      have htree : Ordered tree := below (name, tree) List.mem_cons_self
      have hbelow : ∀ c ∈ others, Ordered c.2 := fun c hc =>
        below c (List.mem_cons_of_mem _ hc)
      rw [markedBelow, List.pairwise_append]
      refine ⟨pairwise_markedFrom tree htree (path ++ [name]),
        pairwise_markedBelow others hothers hbelow path, ?_⟩
      rintro ⟨dir, marker⟩ hx ⟨dir', marker'⟩ hy
      obtain ⟨rest, rfl, -⟩ := (mem_markedFrom tree htree (path ++ [name]) dir marker).1 hx
      obtain ⟨other, rest', rfl, hmark⟩ :=
        (mem_markedBelow others hothers hbelow path dir' marker').1 hy
      -- the second is below a later child, whose segment comes later
      obtain ⟨sub, hsub, -⟩ := Option.bind_eq_some_iff.1 hmark
      have hbefore := hfirst _ ((lookup_eq_some_iff hothers).1 hsub)
      show PathBefore (path ++ [name] ++ rest) (path ++ other :: rest')
      rw [List.append_assoc]
      exact pathBefore_of_before path hbefore rest rest'

end

-- ================================================================== nodes

/-- The tree without a marker has its topmost node only. -/
theorem isSome_descend?_empty {path : List Text} :
    (descend? path empty).isSome ↔ path = [] := by
  cases path with
  | nil => exact ⟨fun _ => rfl, fun _ => rfl⟩
  | cons name rest =>
      constructor
      · intro h
        cases h
      · intro h
        cases h

/-- Marking a directory makes the nodes on the way to it, and no others. -/
theorem isSome_descend?_mark {tree : ComponentTree} (h : Ordered tree) (dir : List Text)
    (marker : Marker) (path : List Text) :
    (descend? path (mark dir marker tree)).isSome
      ↔ (descend? path tree).isSome ∨ path <+: dir := by
  induction dir generalizing tree path with
  | nil =>
      cases h with
      | node ascending below =>
          cases path with
          | nil => simp [descend?]
          | cons name rest =>
              -- the children are the same, and nothing leads through the top
              show (descend? (name :: rest) (.node _ _)).isSome ↔ _
              simp only [List.prefix_nil, reduceCtorEq, or_false]
              rfl
  | cons name dir ih =>
      cases h with
      | @node old children ascending below =>
          cases path with
          | nil => simp [descend?]
          | cons other rest =>
              simp only [mark, descend?, child?, ComponentTree.children]
              by_cases hn : other = name
              · subst hn
                rw [lookup_alterChild_self ascending, Option.bind_some,
                  List.prefix_cons_inj]
                cases hsub : children.lookup other with
                | none =>
                    rw [Option.getD_none, ih ordered_empty, isSome_descend?_empty]
                    constructor
                    · rintro (rfl | hprefix)
                      · exact Or.inr List.nil_prefix
                      · exact Or.inr hprefix
                    · rintro (hnone | hprefix)
                      · cases hnone
                      · exact Or.inr hprefix
                | some sub =>
                    have hmem := (lookup_eq_some_iff ascending).1 hsub
                    exact ih (below _ hmem) rest
              · rw [lookup_alterChild_ne hn]
                have hnot : ¬(other :: rest) <+: (name :: dir) := fun hprefix =>
                  hn (List.cons_prefix_cons.1 hprefix).1
                rw [or_iff_left hnot]

-- ======================================================= trees as they answer

/-- Ascending children are determined by what is found among them. -/
theorem eq_of_lookup {α : Type} {children others : List (Text × α)}
    (hchildren : Ascending children) (hothers : Ascending others)
    (h : ∀ name, children.lookup name = others.lookup name) : children = others := by
  have hnodup : ∀ {list : List (Text × α)}, Ascending list → list.Nodup := by
    intro list hlist
    refine hlist.imp fun hbefore heq => ?_
    exact hbefore.2 (congrArg Prod.fst heq)
  have hperm : children.Perm others := by
    refine (List.perm_ext_iff_of_nodup (hnodup hchildren) (hnodup hothers)).2 ?_
    intro ⟨name, child⟩
    rw [← lookup_eq_some_iff hchildren, ← lookup_eq_some_iff hothers, h]
  refine hperm.eq_of_pairwise ?_ hchildren hothers
  intro c c' _ _ hbefore hafter
  exact absurd rfl (hbefore.trans hafter).2

/-- An ordered tree is determined by its directories and their markers. -/
theorem eq_of_markerAt {tree other : ComponentTree} (htree : Ordered tree) (hother : Ordered other)
    (hnodes : ∀ path, (descend? path tree).isSome ↔ (descend? path other).isSome)
    (hmarks : ∀ path, tree.markerAt path = other.markerAt path) : tree = other := by
  induction htree generalizing other with
  | @node marker children ascending below ih =>
      cases hother with
      | @node marker' children' ascending' below' =>
          have hmarker : marker = marker' := hmarks []
          have hchildren : children = children' := by
            refine eq_of_lookup ascending ascending' fun name => ?_
            have hname := hnodes [name]
            have hbelow := fun path => hnodes (name :: path)
            have hmarks := fun path => hmarks (name :: path)
            simp only [descend?, child?, ComponentTree.children] at hname hbelow
            simp only [markerAt_cons, child?, ComponentTree.children] at hmarks
            cases hc : children.lookup name with
            | none =>
                cases hc' : children'.lookup name with
                | none => rfl
                | some sub' => simp [hc, hc'] at hname
            | some sub =>
                cases hc' : children'.lookup name with
                | none => simp [hc, hc'] at hname
                | some sub' =>
                    have hsub := (lookup_eq_some_iff ascending).1 hc
                    have hsub' := (lookup_eq_some_iff ascending').1 hc'
                    simp only [hc, hc', Option.bind_some] at hbelow hmarks
                    exact congrArg some (ih _ hsub (below' _ hsub') hbelow hmarks)
          rw [hmarker, hchildren]

-- ============================================================= insertions

/-- A tree after a sequence of insertions. -/
def insertInto (tree : ComponentTree) (entries : List (Text × Marker)) : ComponentTree :=
  entries.foldl (fun tree entry => tree.insert entry.1 entry.2) tree

/-- The tree of a sequence of insertions. -/
def insertAll (entries : List (Text × Marker)) : ComponentTree :=
  insertInto empty entries

/-- The marker of the last insertion into a directory. -/
def lastMarker? (entries : List (Text × Marker)) (path : List Text) : Option Marker :=
  (entries.filter fun entry => splitDir entry.1 == path).getLast?.map Prod.snd

/-- Insertions can be made in two parts. -/
theorem insertInto_append (tree : ComponentTree) (front back : List (Text × Marker)) :
    insertInto tree (front ++ back) = insertInto (insertInto tree front) back :=
  List.foldl_append

/-- The last insertion marks the tree of those before it. -/
theorem insertInto_concat (tree : ComponentTree) (entries : List (Text × Marker))
    (entry : Text × Marker) :
    insertInto tree (entries ++ [entry])
      = mark (splitDir entry.1) entry.2 (insertInto tree entries) :=
  insertInto_append tree entries [entry]

/-- A later insertion comes before an earlier one. -/
theorem lastMarker?_append (front back : List (Text × Marker)) (path : List Text) :
    lastMarker? (front ++ back) path = (lastMarker? back path).or (lastMarker? front path) := by
  unfold lastMarker?
  rw [List.filter_append, List.getLast?_append, Option.map_or]

theorem lastMarker?_singleton (entry : Text × Marker) (path : List Text) :
    lastMarker? [entry] path = if path = splitDir entry.1 then some entry.2 else none := by
  unfold lastMarker?
  by_cases hpath : path = splitDir entry.1
  · simp [hpath]
  · simp [hpath, Ne.symm hpath]

/-- The last marker at a directory was inserted there. -/
theorem mem_of_lastMarker? {entries : List (Text × Marker)} {path : List Text} {marker : Marker}
    (h : lastMarker? entries path = some marker) :
    ∃ entry ∈ entries, splitDir entry.1 = path ∧ entry.2 = marker := by
  unfold lastMarker? at h
  obtain ⟨entry, hlast, hmarker⟩ := Option.map_eq_some_iff.1 h
  obtain ⟨hmem, hpath⟩ := List.mem_filter.1 (List.mem_of_getLast? hlast)
  exact ⟨entry, hmem, by simpa using hpath, hmarker⟩

/-- There is none where nothing was inserted. -/
theorem lastMarker?_eq_none_iff {entries : List (Text × Marker)} {path : List Text} :
    lastMarker? entries path = none ↔ ∀ entry ∈ entries, splitDir entry.1 ≠ path := by
  unfold lastMarker?
  simp

/-- Insertions keep a tree in order. -/
theorem ordered_insertInto {tree : ComponentTree} (h : Ordered tree)
    (entries : List (Text × Marker)) : Ordered (insertInto tree entries) :=
  List.foldlRecOn entries _ h fun _ htree entry _ =>
    ordered_mark htree (splitDir entry.1) entry.2

/-- Insertions make the nodes on the way to their directories, and no others. -/
theorem isSome_descend?_insertInto {tree : ComponentTree} (h : Ordered tree)
    (entries : List (Text × Marker)) (path : List Text) :
    (descend? path (insertInto tree entries)).isSome
      ↔ (descend? path tree).isSome ∨ ∃ entry ∈ entries, path <+: splitDir entry.1 := by
  induction entries using List.reverseRecOn with
  | nil =>
      show (descend? path tree).isSome ↔ _
      simp
  | append_singleton entries entry ih =>
      rw [insertInto_concat, isSome_descend?_mark (ordered_insertInto h entries), ih]
      simp only [List.mem_append, List.mem_singleton, or_and_right, exists_or,
        exists_eq_left, or_assoc]

/-- A directory has the marker of the last insertion into it, and without one
the marker that it had before. -/
theorem markerAt_insertInto {tree : ComponentTree} (h : Ordered tree)
    (entries : List (Text × Marker)) (path : List Text) :
    (insertInto tree entries).markerAt path
      = (lastMarker? entries path).or (tree.markerAt path) := by
  induction entries using List.reverseRecOn with
  | nil => rfl
  | append_singleton entries entry ih =>
      rw [insertInto_concat, markerAt_mark (ordered_insertInto h entries), lastMarker?_append,
        lastMarker?_singleton, ih]
      by_cases hpath : path = splitDir entry.1
      · simp [hpath]
      · simp [hpath]

theorem ordered_insertAll (entries : List (Text × Marker)) : Ordered (insertAll entries) :=
  ordered_insertInto ordered_empty entries

/-- The nodes of a tree are the top and those on the way to an insertion. -/
theorem isSome_descend?_insertAll (entries : List (Text × Marker)) (path : List Text) :
    (descend? path (insertAll entries)).isSome
      ↔ path = [] ∨ ∃ entry ∈ entries, path <+: splitDir entry.1 := by
  rw [← isSome_descend?_empty]
  exact isSome_descend?_insertInto ordered_empty entries path

/-- What is marked at a directory is what was inserted there last. -/
theorem markerAt_insertAll (entries : List (Text × Marker)) (path : List Text) :
    (insertAll entries).markerAt path = lastMarker? entries path := by
  have h := markerAt_insertInto ordered_empty entries path
  rw [markerAt_empty, Option.or_none] at h
  exact h

end ComponentTree

end ComponentPaths
