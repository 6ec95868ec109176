/-
What an owner says about its path, and why it is the right one.

The owner of a path splits the segments of the path in two: the first ones
lead to a directory that is the root of the owner's component (`HasRoot`),
and the others, joined, are the path that remains inside of it. No segment
is dropped and none is made up. That is `resolve?_owned`, and decisions need
no more. But the owner is also the deepest there is (`Deepest`).

The descent never goes back. Instead it remembers the last plugin root and
the last subsystem root that it passed, each with what was left of the path
there, and one of them answers when the path leaves the tree. So two things
have to hold of what is remembered, and one invariant says both, for either
kind of root (`Remembers`): it is a root of the kind on the part of the path
that is done, with the rest of the path behind it, and no root of the kind
is further down on that part.

`Descent` is this invariant together with the place the descent has reached.
One step keeps it (`Descent.step`), and a whole descent stops in it, at the
last directory of the path that is in the tree (`Descent.stops`). There the
part that is done may be replaced by the whole path (`Descent.noneBelow`),
and what is left is to look at the ways to answer.

The root of the codebase belongs to the root component whatever it is marked
with: a descent remembers directories that it enters, and it starts there.
So the roots that are ruled out are those further down than the topmost
directory, and `plugin_above_subsystem` shows that one there is passed over.
-/
import ComponentPaths.Proofs.Tree.Markers
import ComponentPaths.Tree.Resolve

namespace ComponentPaths

/-- Whether a marker is the root of a plugin. -/
def Marker.isPluginRoot : Marker → Bool
  | .pluginRoot _ _ => true
  | _ => false

/-- Whether a marker is the root of a subsystem. -/
def Marker.isSubsystemRoot : Marker → Bool
  | .subsystemRoot _ => true
  | _ => false

namespace ComponentTree

open Symbolic (properSegments stripRoot?)

variable {tree node child : ComponentTree} {kind : Marker → Bool}
  {all done left dir rest : List Text} {segment : Text} {plugin subsystem passed : Passed}
  {owner : Owner}

-- ============================================================ roots on a way

/-- A directory is marked as a root of a kind. -/
def RootAt (tree : ComponentTree) (kind : Marker → Bool) (dir : List Text) : Prop :=
  (tree.markerAt dir).any kind = true

/-- On a way down, no root of a kind is further down than a directory. -/
def NoneBelow (tree : ComponentTree) (kind : Marker → Bool) (way dir : List Text) : Prop :=
  ∀ p, p <+: way → dir.length < p.length → ¬RootAt tree kind p

theorem rootAt_of_markerAt {marker : Marker} (h : tree.markerAt dir = some marker)
    (hk : kind marker = true) : RootAt tree kind dir := by
  unfold RootAt
  rw [h]
  exact hk

theorem not_rootAt_of_markerAt {marker : Marker} (h : tree.markerAt dir = some marker)
    (hk : kind marker = false) : ¬RootAt tree kind dir := by
  unfold RootAt
  rw [h]
  simp [hk]

/-- A root is in the tree. -/
theorem RootAt.isSome (h : RootAt tree kind dir) : (descend? dir tree).isSome = true := by
  unfold RootAt markerAt at h
  cases hd : descend? dir tree with
  | none =>
      rw [hd] at h
      cases h
  | some node => rfl

theorem noneBelow_self (tree : ComponentTree) (kind : Marker → Bool) (way : List Text) :
    NoneBelow tree kind way way := by
  intro p hp hlt
  have := hp.length_le
  omega

-- ============================================================== remembering

/-- What a descent to the end of `done` remembers of a kind of root: the one
furthest down, with what is left of `all` behind it. -/
inductive Remembers (tree : ComponentTree) (kind : Marker → Bool) (all done : List Text) :
    Passed → Prop
  | nothing (unseen : NoneBelow tree kind done []) : Remembers tree kind all done none
  | root {dir rest : List Text} {marker : Marker} {component : Component}
      (split : all = dir ++ rest) (entered : dir ≠ [])
      (mark : tree.markerAt dir = some marker)
      (isKind : kind marker = true) (names : marker.component? = some component)
      (deepest : NoneBelow tree kind done dir) :
      Remembers tree kind all done (some (component, rest))

/-- What is remembered after entering a directory. -/
def remember (kind : Marker → Bool) (child : ComponentTree) (rest : List Text)
    (passed : Passed) : Passed :=
  match child.marker?.filter kind with
  | some marker => marker.component?.map fun component => (component, rest)
  | none => passed

/-- The descent remembers a directory for its kind of root, and goes on. -/
theorem resolveFrom_cons (hchild : node.child? segment = some child) :
    resolveFrom all node plugin subsystem (segment :: rest)
      = resolveFrom all child (remember Marker.isPluginRoot child rest plugin)
          (remember Marker.isSubsystemRoot child rest subsystem) rest := by
  rw [resolveFrom, hchild]
  unfold remember
  dsimp only
  cases child.marker? with
  | none => rfl
  | some marker =>
      cases marker with
      | subsystemRoot name => cases name <;> rfl
      | pluginTypeRoot type => rfl
      | pluginRoot type name => rfl

/-- Entering a directory keeps what is remembered right. -/
theorem Remembers.step (hkind : ∀ marker, kind marker = true → marker.component? ≠ none)
    (h : Remembers tree kind all done passed) (hall : all = done ++ segment :: rest)
    (hchild : descend? (done ++ [segment]) tree = some child) :
    Remembers tree kind all (done ++ [segment]) (remember kind child rest passed) := by
  have hmark := markerAt_of_descend? hchild
  have hall' : all = (done ++ [segment]) ++ rest := by simp [hall]
  unfold remember
  cases hm : child.marker?.filter kind with
  | some marker =>
      obtain ⟨hmarker, hk⟩ := Option.filter_eq_some_iff.1 hm
      cases hc : marker.component? with
      | none => exact absurd hc (hkind marker hk)
      | some component =>
          simp only [hc, Option.map_some]
          exact .root hall' (by simp) (hmark.trans hmarker) hk hc (noneBelow_self _ _ _)
  | none =>
      have hno : ¬RootAt tree kind (done ++ [segment]) := by
        intro hroot
        unfold RootAt at hroot
        rw [hmark, Option.any_eq_true] at hroot
        obtain ⟨marker, hmarker, hk⟩ := hroot
        exact Option.filter_eq_none_iff.1 hm marker hmarker hk
      -- a first part of the longer way is the whole of it, or was there before
      have hgrow : ∀ dir, NoneBelow tree kind done dir →
          NoneBelow tree kind (done ++ [segment]) dir := by
        intro dir hdir p hp hlt
        rcases List.prefix_concat_iff.1 hp with rfl | hp
        · exact hno
        · exact hdir p hp hlt
      cases h with
      | nothing unseen => exact .nothing (hgrow _ unseen)
      | root split entered mark isKind names deepest =>
          exact .root split entered mark isKind names (hgrow _ deepest)

-- ============================================================== the descent

/-- A descent that has reached `node` at the end of `done`. -/
structure Descent (tree : ComponentTree) (all done left : List Text) (node : ComponentTree)
    (plugin subsystem : Passed) : Prop where
  split : all = done ++ left
  here : descend? done tree = some node
  plugin : Remembers tree Marker.isPluginRoot all done plugin
  subsystem : Remembers tree Marker.isSubsystemRoot all done subsystem

theorem Descent.start (tree : ComponentTree) (all : List Text) :
    Descent tree all [] all tree none none :=
  ⟨rfl, rfl, .nothing (noneBelow_self _ _ _), .nothing (noneBelow_self _ _ _)⟩

theorem Descent.step (h : Descent tree all done (segment :: rest) node plugin subsystem)
    (hchild : node.child? segment = some child) :
    Descent tree all (done ++ [segment]) rest child
      (remember Marker.isPluginRoot child rest plugin)
      (remember Marker.isSubsystemRoot child rest subsystem) := by
  have hhere : descend? (done ++ [segment]) tree = some child := by
    rw [descend?_append, h.here]
    simp [descend?, hchild]
  refine ⟨by simp [h.split], hhere, h.plugin.step ?_ h.split hhere,
    h.subsystem.step ?_ h.split hhere⟩
  · intro marker hk
    cases marker <;> simp_all [Marker.isPluginRoot, Marker.component?]
  · intro marker hk
    cases marker with
    | subsystemRoot name => cases name <;> simp [Marker.component?]
    | _ => simp [Marker.isSubsystemRoot] at hk

/-- The way down ends at a node: nothing is left, or the next segment has no
node of its own. -/
def Ends (node : ComponentTree) (left : List Text) : Prop :=
  ∀ segment rest, left = segment :: rest → node.child? segment = none

/-- A descent goes on until the way down ends, and gives the answer found
there. -/
theorem Descent.stops (h : Descent tree all done left node plugin subsystem) :
    ∃ done' left' node' plugin' subsystem',
      Descent tree all done' left' node' plugin' subsystem' ∧ Ends node' left'
      ∧ resolveFrom all node plugin subsystem left
          = resolveFrom all node' plugin' subsystem' left' := by
  induction left generalizing done node plugin subsystem with
  | nil => exact ⟨done, [], node, plugin, subsystem, h, fun _ _ hl => (by cases hl), rfl⟩
  | cons segment rest ih =>
      cases hchild : node.child? segment with
      | none =>
          refine ⟨done, segment :: rest, node, plugin, subsystem, h, ?_, rfl⟩
          intro segment' rest' hl
          cases hl
          exact hchild
      | some child =>
          rw [resolveFrom_cons hchild]
          exact ih (h.step hchild)

/-- Where a descent stops, it has passed every directory of the path that is in
the tree. -/
theorem Descent.prefix_done (h : Descent tree all done left node plugin subsystem)
    (hends : Ends node left) {p : List Text} (hp : p <+: all)
    (hin : (descend? p tree).isSome = true) : p <+: done := by
  have hdone : done <+: all := by
    rw [h.split]
    exact List.prefix_append done left
  rcases List.prefix_or_prefix_of_prefix hp hdone with hp' | ⟨tail, rfl⟩
  · exact hp'
  · cases tail with
    | nil => simp
    | cons segment tail =>
        -- one segment more than is done leads out of the tree
        rw [h.split, List.prefix_append_right_inj] at hp
        obtain ⟨rest, hrest⟩ := hp
        have hchild := hends segment (tail ++ rest) hrest.symm
        rw [descend?_append, h.here] at hin
        simp [descend?, hchild] at hin

/-- Where a descent stops, what it says about the part that is done holds of
the whole path. -/
theorem Descent.noneBelow (h : Descent tree all done left node plugin subsystem)
    (hends : Ends node left) (hdir : NoneBelow tree kind done dir) :
    NoneBelow tree kind all dir := by
  intro p hp hlt hroot
  exact hdir p (h.prefix_done hends hp hroot.isSome) hlt hroot

-- =============================================================== the answer

/-- A directory is the root of a component: the root of the codebase, a
directory marked for the component, or a directory right below the one of
its plugin type. -/
inductive HasRoot (tree : ComponentTree) : List Text → Component → Prop
  | root : HasRoot tree [] .root
  | subsystem {dir : List Text} {name : Option Text}
      (h : tree.markerAt dir = some (.subsystemRoot name)) :
      HasRoot tree dir ((name.map Component.subsystem).getD .coreLibrary)
  | plugin {dir : List Text} {type name : Text}
      (h : tree.markerAt dir = some (.pluginRoot type name)) :
      HasRoot tree dir (.plugin type name)
  | ofType {dir : List Text} {type name : Text}
      (h : tree.markerAt dir = some (.pluginTypeRoot type)) :
      HasRoot tree (dir ++ [name]) (.plugin type name)

/-- An owner splits the segments of its path at the root of its component. -/
def Owned (tree : ComponentTree) (all : List Text) (owner : Owner) : Prop :=
  ∃ dir rest, all = dir ++ rest ∧ owner.relativePath = Text.joinSlash rest
    ∧ HasRoot tree dir owner.component

/-- No other directory on the way `dir ++ rest` has a better claim than `dir`. A
plugin comes before a subsystem, and of two of a kind the one further down
counts; a path that is the root of a subsystem to its end belongs to it all
the same. A plugin without a mark of its own is one segment below all that
is in the tree. -/
structure Deepest (tree : ComponentTree) (dir rest : List Text) (component : Component) :
    Prop where
  plugin : RootAt tree Marker.isPluginRoot dir →
    NoneBelow tree Marker.isPluginRoot (dir ++ rest) dir
  subsystem : RootAt tree Marker.isSubsystemRoot dir → rest ≠ [] →
    NoneBelow tree Marker.isPluginRoot (dir ++ rest) []
    ∧ NoneBelow tree Marker.isSubsystemRoot (dir ++ rest) dir
  root : component = .root →
    NoneBelow tree Marker.isPluginRoot (dir ++ rest) []
    ∧ NoneBelow tree Marker.isSubsystemRoot (dir ++ rest) []
  unmarked : ∀ type name, component = .plugin type name →
    tree.markerAt dir ≠ some (.pluginRoot type name) →
    ∀ p, p <+: dir ++ rest → (descend? p tree).isSome = true → p.length < dir.length

/-- The rightful owner splits the segments of its path at the root of its
component, and no other has a better claim. -/
def Rightful (tree : ComponentTree) (all : List Text) (owner : Owner) : Prop :=
  ∃ dir rest, all = dir ++ rest ∧ owner.relativePath = Text.joinSlash rest
    ∧ HasRoot tree dir owner.component ∧ Deepest tree dir rest owner.component

/-- A plugin root with no other further down is the owner's. -/
theorem rightful_plugin {type name : Text}
    (hmark : tree.markerAt dir = some (.pluginRoot type name))
    (hnone : NoneBelow tree Marker.isPluginRoot (dir ++ rest) dir) :
    Rightful tree (dir ++ rest) ⟨.plugin type name, Text.joinSlash rest⟩ := by
  refine ⟨dir, rest, rfl, rfl, .plugin hmark, fun _ => hnone, fun hroot => ?_,
    fun hc => ?_, fun type' name' hc hne => ?_⟩
  · exact absurd hroot (not_rootAt_of_markerAt hmark rfl)
  · cases hc
  · cases hc
    exact absurd hmark hne

/-- A subsystem root is the owner's where nothing is left, or else when no
plugin root is on the way and no other subsystem root further down. -/
theorem rightful_subsystem {name : Option Text}
    (hmark : tree.markerAt dir = some (.subsystemRoot name))
    (hnone : rest ≠ [] → NoneBelow tree Marker.isPluginRoot (dir ++ rest) []
      ∧ NoneBelow tree Marker.isSubsystemRoot (dir ++ rest) dir) :
    Rightful tree (dir ++ rest)
      ⟨(name.map Component.subsystem).getD .coreLibrary, Text.joinSlash rest⟩ := by
  refine ⟨dir, rest, rfl, rfl, .subsystem hmark, fun hroot => ?_, fun _ => hnone,
    fun hc => ?_, fun type' name' hc => ?_⟩
  · exact absurd hroot (not_rootAt_of_markerAt hmark rfl)
  · cases name <;> cases hc
  · cases name <;> cases hc

/-- A plugin root is named by a plugin marker. -/
theorem eq_pluginRoot {marker : Marker} {component : Component}
    (hk : marker.isPluginRoot = true) (hc : marker.component? = some component) :
    ∃ type name, marker = .pluginRoot type name ∧ component = .plugin type name := by
  cases marker with
  | pluginRoot type name => exact ⟨type, name, rfl, (Option.some.inj hc).symm⟩
  | subsystemRoot name => cases hk
  | pluginTypeRoot type => cases hk

theorem eq_subsystemRoot {marker : Marker} {component : Component}
    (hk : marker.isSubsystemRoot = true) (hc : marker.component? = some component) :
    ∃ name, marker = .subsystemRoot name
      ∧ component = (name.map Component.subsystem).getD .coreLibrary := by
  cases marker with
  | subsystemRoot name =>
      refine ⟨name, rfl, ?_⟩
      cases name <;> exact (Option.some.inj hc).symm
  | pluginRoot type name => cases hk
  | pluginTypeRoot type => cases hk

/-- What the descent remembers is the rightful owner. -/
theorem Descent.rightful_fallback (h : Descent tree all done left node plugin subsystem)
    (hends : Ends node left) : Rightful tree all (fallback all plugin subsystem) := by
  cases h.plugin with
  | @root dir rest marker component split entered mark isKind names deepest =>
      obtain ⟨type, name, rfl, rfl⟩ := eq_pluginRoot isKind names
      have hnone := h.noneBelow hends deepest
      rw [split] at hnone ⊢
      exact rightful_plugin mark hnone
  | nothing unseen =>
      have hplugin := h.noneBelow hends unseen
      cases h.subsystem with
      | @root dir rest marker component split entered mark isKind names deepest =>
          obtain ⟨name, rfl, rfl⟩ := eq_subsystemRoot isKind names
          have hnone := h.noneBelow hends deepest
          rw [split] at hplugin hnone ⊢
          exact rightful_subsystem mark fun _ => ⟨hplugin, hnone⟩
      | nothing unseen' =>
          have hsubsystem := h.noneBelow hends unseen'
          exact ⟨[], all, rfl, rfl, .root, fun _ => hplugin, fun _ _ => ⟨hplugin, hsubsystem⟩,
            fun _ => ⟨hplugin, hsubsystem⟩, fun _ _ hc => (by cases hc)⟩

theorem Descent.rightful_strayed (h : Descent tree all done left node plugin subsystem)
    (hends : Ends node left) (howner : strayed segment all plugin subsystem = some owner) :
    Rightful tree all owner := by
  unfold strayed at howner
  split at howner
  · cases howner
  · rw [← Option.some.inj howner]
    exact h.rightful_fallback hends

/-- The answer where the next segment leads out of the tree. -/
theorem Descent.rightful_diverge
    (h : Descent tree all done (segment :: rest) node plugin subsystem)
    (hchild : node.child? segment = none)
    (howner : diverge node segment rest all plugin subsystem = some owner) :
    Rightful tree all owner := by
  have hends : Ends node (segment :: rest) := by
    intro segment' rest' hl
    cases hl
    exact hchild
  unfold diverge at howner
  split at howner
  · cases howner
  · split at howner
    · rw [← Option.some.inj howner]
      exact h.rightful_fallback hends
    · rename_i type hmarker
      split at howner
      · split at howner
        · cases howner
        · -- the segment is the name of a plugin of the type found here
          have hmark : tree.markerAt done = some (.pluginTypeRoot type) := by
            rw [markerAt_of_descend? h.here, hmarker]
          have hout : ∀ kind, ¬RootAt tree kind (done ++ [segment]) := by
            intro kind hroot
            have hin := hroot.isSome
            rw [descend?_append, h.here] at hin
            simp [descend?, hchild] at hin
          rw [← Option.some.inj howner]
          have hall : all = (done ++ [segment]) ++ rest := by simp [h.split]
          refine ⟨done ++ [segment], rest, hall, rfl, .ofType hmark,
            fun hroot => absurd hroot (hout _), fun hroot => absurd hroot (hout _),
            fun hc => (by cases hc), fun _ _ _ _ p hp hin => ?_⟩
          rw [← hall] at hp
          have hlength := (h.prefix_done hends hp hin).length_le
          rw [List.length_append, List.length_singleton]
          omega
      · exact h.rightful_strayed hends howner
    · exact h.rightful_strayed hends howner

/-- The answer where the way down ends. -/
theorem Descent.rightful (h : Descent tree all done left node plugin subsystem)
    (hends : Ends node left)
    (howner : resolveFrom all node plugin subsystem left = some owner) :
    Rightful tree all owner := by
  cases left with
  | cons segment rest =>
      have hchild := hends segment rest rfl
      rw [resolveFrom, hchild] at howner
      exact h.rightful_diverge hchild howner
  | nil =>
      have hmark := markerAt_of_descend? h.here
      have hall : all = done ++ [] := h.split
      rw [resolveFrom] at howner
      split at howner
      · rename_i type name hmarker
        rw [← Option.some.inj howner, hall]
        refine rightful_plugin (hmark.trans hmarker) ?_
        rw [List.append_nil]
        exact noneBelow_self _ _ _
      · rename_i name hmarker
        rw [← Option.some.inj howner, hall]
        exact rightful_subsystem (hmark.trans hmarker) fun hne => absurd rfl hne
      · rw [← Option.some.inj howner]
        exact h.rightful_fallback hends

/-- The owner of a path is the rightful one. -/
theorem resolve?_rightful {path : Text} (h : tree.resolve? path = some owner) :
    ∃ below, stripRoot? path = some below ∧ Rightful tree (properSegments below) owner := by
  unfold resolve? at h
  split at h
  · cases h
  · rename_i below hbelow
    refine ⟨below, hbelow, ?_⟩
    split at h
    · rename_i hnil
      rw [← Option.some.inj h, hnil]
      exact (Descent.start tree []).rightful_fallback fun _ _ hl => (by cases hl)
    · obtain ⟨done, left, node, plugin, subsystem, hdescent, hends, hsame⟩ :=
        (Descent.start tree (properSegments below)).stops
      rw [hsame] at h
      exact hdescent.rightful hends h

/-- The owner of a path splits its segments at the root of a component. -/
theorem resolve?_owned {path : Text} (h : tree.resolve? path = some owner) :
    ∃ below, stripRoot? path = some below ∧ Owned tree (properSegments below) owner := by
  obtain ⟨below, hbelow, dir, rest, hall, hrel, hroot, -⟩ := resolve?_rightful h
  exact ⟨below, hbelow, dir, rest, hall, hrel, hroot⟩

/-- The owner of a path splits its segments in two. The first ones lead to the
root of the codebase, to a directory marked for the component, or to one
segment below the last directory that is in the tree, if that is the one of
the plugin type; the others are the path that remains. No plugin root is
further down than the one that answers. Where a subsystem answers for more
than its own directory, there is no plugin root below the topmost directory
and no subsystem root further down, and where the root answers, there is
neither. -/
theorem resolve?_deepest {tree : ComponentTree} {path : Text} {owner : Owner}
    (h : tree.resolve? path = some owner) :
    ∃ below dir rest, stripRoot? path = some below
      ∧ properSegments below = dir ++ rest ∧ owner.relativePath = Text.joinSlash rest
      ∧ ((owner.component = .root ∧ dir = [])
        ∨ (∃ name, tree.markerAt dir = some (.subsystemRoot name)
            ∧ owner.component = (name.map Component.subsystem).getD .coreLibrary)
        ∨ ∃ type name, owner.component = .plugin type name
            ∧ (tree.markerAt dir = some (.pluginRoot type name)
              ∨ ∃ front, dir = front ++ [name]
                ∧ tree.markerAt front = some (.pluginTypeRoot type)
                ∧ ∀ p, p <+: dir ++ rest → (descend? p tree).isSome = true →
                    p.length ≤ front.length))
      ∧ (RootAt tree Marker.isPluginRoot dir → ∀ p, p <+: dir ++ rest →
          dir.length < p.length → ¬RootAt tree Marker.isPluginRoot p)
      ∧ (RootAt tree Marker.isSubsystemRoot dir → owner.relativePath ≠ [] →
          ∀ p, p <+: dir ++ rest →
            (p ≠ [] → ¬RootAt tree Marker.isPluginRoot p)
            ∧ (dir.length < p.length → ¬RootAt tree Marker.isSubsystemRoot p))
      ∧ (owner.component = .root → ∀ p, p <+: dir ++ rest → p ≠ [] →
          ¬RootAt tree Marker.isPluginRoot p ∧ ¬RootAt tree Marker.isSubsystemRoot p) := by
  obtain ⟨below, hbelow, dir, rest, hall, hrel, hasRoot, hdeepest⟩ := resolve?_rightful h
  refine ⟨below, dir, rest, hbelow, hall, hrel, ?_, hdeepest.plugin, ?_, ?_⟩
  · have hunmarked := hdeepest.unmarked
    generalize owner.component = component at hasRoot hunmarked
    cases hasRoot with
    | root => exact Or.inl ⟨rfl, rfl⟩
    | subsystem mark => exact Or.inr (Or.inl ⟨_, mark, rfl⟩)
    | plugin mark => exact Or.inr (Or.inr ⟨_, _, rfl, Or.inl mark⟩)
    | @ofType front type name mark =>
        refine Or.inr (Or.inr ⟨type, name, rfl, ?_⟩)
        by_cases hmark : tree.markerAt (front ++ [name]) = some (.pluginRoot type name)
        · exact Or.inl hmark
        · refine Or.inr ⟨front, rfl, mark, fun p hp hin => ?_⟩
          have hlt := hunmarked type name rfl hmark p hp hin
          rw [List.length_append, List.length_singleton] at hlt
          omega
  · intro hroot hne p hp
    have hrest : rest ≠ [] := by
      rintro rfl
      exact hne hrel
    obtain ⟨hplugin, hsubsystem⟩ := hdeepest.subsystem hroot hrest
    exact ⟨fun hp' => hplugin p hp (List.length_pos_iff.2 hp'), hsubsystem p hp⟩
  · intro hc p hp hne
    obtain ⟨hplugin, hsubsystem⟩ := hdeepest.root hc
    have hlength := List.length_pos_iff.2 hne
    exact ⟨hplugin p hp hlength, hsubsystem p hp hlength⟩

/-- Activity modules, one of which has types of its own. -/
def withSubtypes : ComponentTree :=
  .ofManifests ⟨[("mod", "mod")], [("admin", some "admin")]⟩
    [⟨"mod", "assign", ⟨[("assignfeedback", "feedback")], []⟩⟩]

theorem resolve?_deepest_withSubtypes :
    withSubtypes.resolve? "@/mod/assign/feedback/a-b/lib.php"
        = some ⟨.plugin "mod" "assign", "feedback/a-b/lib.php"⟩
    ∧ ∃ below dir rest, stripRoot? "@/mod/assign/feedback/a-b/lib.php" = some below
        ∧ properSegments below = dir ++ rest
        ∧ "feedback/a-b/lib.php" = Text.joinSlash rest
        ∧ (RootAt withSubtypes Marker.isPluginRoot dir → ∀ p, p <+: dir ++ rest →
            dir.length < p.length → ¬RootAt withSubtypes Marker.isPluginRoot p) := by
  have howner : withSubtypes.resolve? "@/mod/assign/feedback/a-b/lib.php"
      = some ⟨.plugin "mod" "assign", "feedback/a-b/lib.php"⟩ := by
    decide +kernel
  obtain ⟨below, dir, rest, hbelow, hall, hrel, -, hplugin, -⟩ := resolve?_deepest howner
  exact ⟨howner, below, dir, rest, hbelow, hall, hrel, hplugin⟩

/-- A plugin whose directory is the topmost one, and a subsystem. -/
def topmostPlugin : ComponentTree :=
  .ofManifests ⟨[("local", "")], [("admin", some "admin")]⟩ [⟨"local", ".", ⟨[], []⟩⟩]

/-- The topmost directory is never remembered, so a plugin there does not come
before a subsystem. -/
theorem plugin_above_subsystem :
    topmostPlugin.resolve? "@/admin/index.php" = some ⟨.subsystem "admin", "index.php"⟩
    ∧ stripRoot? "@/admin/index.php" = some ("admin/index.php" : Text)
    ∧ topmostPlugin.markerAt [] = some (.pluginRoot "local" ".")
    ∧ ¬∃ dir rest, properSegments "admin/index.php" = dir ++ rest
        ∧ "index.php" = Text.joinSlash rest
        ∧ RootAt topmostPlugin Marker.isSubsystemRoot dir
        ∧ ∀ p, p <+: dir ++ rest → ¬RootAt topmostPlugin Marker.isPluginRoot p := by
  have hmark : topmostPlugin.markerAt [] = some (.pluginRoot "local" ".") := by
    decide +kernel
  refine ⟨by decide +kernel, rfl, hmark, ?_⟩
  rintro ⟨dir, rest, -, -, -, hnone⟩
  exact hnone [] List.nil_prefix (rootAt_of_markerAt hmark rfl)

end ComponentTree

end ComponentPaths
