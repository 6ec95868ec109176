/-
Decisions never fail.

A decision asks for code in three places that can refuse: the id of a
component without an address, the name of a plugin and a relative path, the
last two when they mention the root anchor. None of them refuses on paths
that are categorized and resolved first:

- The order of the rules keeps the root and the core library away from
  component ids (`forTarget_ok`).
- A path that mentions the root again is suspect, and a suspect path is
  left as it is before any code is asked for (`ofPath?_of_embedded`).
- A relative path is made of segments of the path, and so is the name of a
  plugin: a name that comes from a marker stands, character by character,
  in the directory of that marker (`nameOnTheWay_ofManifests`), and the
  path leads there. So neither mentions the root unless the path does
  (`resolve?_rootFree`).
-/
import ComponentPaths.Finding
import ComponentPaths.Proofs.Tree.Owners

namespace ComponentPaths

open Symbolic (properSegments stripRoot?)

-- =================================================================== calls

namespace Call

/-- A path that does not mention the root can be written as code. -/
theorem fragment_ok {path : Text} (h : '@' ∉ path) : ∃ code, fragment path = .ok code := by
  obtain ⟨code, hcode⟩ := Option.isSome_iff_exists.1 (Symbolic.toExpression?_isSome h)
  refine ⟨code, ?_⟩
  unfold fragment
  rw [hcode]

/-- A component with an address has an id, if its name does not mention the
root. -/
theorem componentId_ok {component : Component} (hs : component.isSynthetic = false)
    (hn : ∀ type name, component = .plugin type name → '@' ∉ name) :
    ∃ id, componentId component = .ok id := by
  cases component with
  | root => cases hs
  | coreLibrary => cases hs
  | subsystem name => exact ⟨_, rfl⟩
  | plugin type name =>
      simp only [componentId]
      split
      · obtain ⟨code, hcode⟩ := fragment_ok (hn type name rfl)
        rw [hcode]
        exact ⟨_, rfl⟩
      · exact ⟨_, rfl⟩

/-- A call for a component can be written, if nothing in it mentions the root. -/
theorem componentPath_ok (api : Text) {relative : Text} {component : Component}
    (hs : component.isSynthetic = false)
    (hn : ∀ type name, component = .plugin type name → '@' ∉ name)
    (hr : '@' ∉ relative) : ∃ code, componentPath api component relative = .ok code := by
  obtain ⟨id, hid⟩ := componentId_ok hs hn
  obtain ⟨code, hcode⟩ := fragment_ok hr
  unfold componentPath
  rw [hid, hcode]
  dsimp only
  split
  · exact ⟨_, rfl⟩
  · exact ⟨_, rfl⟩

theorem corePath_ok (api : Text) {suffix : Text} (h : '@' ∉ suffix) :
    ∃ code, corePath api suffix = .ok code := by
  obtain ⟨code, hcode⟩ := fragment_ok h
  unfold corePath
  rw [hcode]
  exact ⟨_, rfl⟩

end Call

-- =============================================================== decisions

namespace Decision

/-- Neither the relative path nor the name of a plugin mentions the root. -/
structure RootFree (owner : Owner) : Prop where
  relative : '@' ∉ owner.relativePath
  name : ∀ type name, owner.component = .plugin type name → '@' ∉ name

theorem coreSuffix_rootFree {target : Owner} (h : '@' ∉ target.relativePath) :
    '@' ∉ coreSuffix target := by
  unfold coreSuffix
  split
  · split
    · decide
    · rw [List.mem_append, not_or]
      exact ⟨by decide, h⟩
  · exact h

/-- Dynamic names are names of plugins, which have an address. -/
theorem isSynthetic_of_dynamic {component : Component}
    (h : component.hasDynamicName = true) : component.isSynthetic = false := by
  cases component with
  | plugin type name => rfl
  | _ => cases h

/-- A decision can be made for an owned path, -/
theorem forTarget_ok (s : Situation) {target : Owner} (h : RootFree target) :
    ∃ d, forTarget s target = .ok d := by
  unfold forTarget
  split
  · rename_i hdyn
    obtain ⟨code, hcode⟩ := Call.componentPath_ok s.api
      (isSynthetic_of_dynamic hdyn) h.name h.relative
    rw [hcode]
    exact ⟨_, rfl⟩
  · split
    · exact ⟨_, rfl⟩
    · split
      · exact ⟨_, rfl⟩
      · split
        · obtain ⟨code, hcode⟩ :=
            Call.corePath_ok s.api (coreSuffix_rootFree h.relative)
          rw [hcode]
          exact ⟨_, rfl⟩
        · rename_i hsyn
          obtain ⟨code, hcode⟩ := Call.componentPath_ok s.api
            (by simpa using hsyn) h.name h.relative
          rw [hcode]
          exact ⟨_, rfl⟩

/-- and for any other. -/
theorem byTarget_ok (s : Situation) (h : ∀ target, s.target = some target → RootFree target) :
    ∃ d, byTarget s = .ok d := by
  unfold byTarget
  split
  · exact ⟨_, rfl⟩
  · rename_i target htarget
    exact forTarget_ok s (h target htarget)

/-- A decision can only fail where a category without review leads on to a
target, so the targets of those categories are all that matters. -/
theorem decide_ok (s : Situation)
    (h : s.category ≠ some .suspect → ∀ target, s.target = some target → RootFree target) :
    ∃ d, decide s = .ok d := by
  have hby : ∃ d, byCategory s = .ok d := by
    unfold byCategory
    split
    · exact ⟨_, rfl⟩
    · rename_i hreview
      split
      · exact ⟨_, rfl⟩
      · split
        · exact ⟨_, rfl⟩
        · exact ⟨_, rfl⟩
        · exact ⟨_, rfl⟩
        · refine byTarget_ok s (h fun hsus => ?_)
          rw [hsus] at hreview
          cases hreview
  obtain ⟨d, hd⟩ := hby
  refine ⟨inContext s.flags d, ?_⟩
  unfold decide
  rw [hd]
  rfl

end Decision

-- ============================================================== categories

/-- A path that mentions the root again is suspect. -/
theorem Category.ofPath?_of_embedded {path : Text} (h : '@' ∈ path.tail) :
    Category.ofPath? path = some .suspect := by
  have hdir : ¬(path = ("@" : Text) ∨ path = ("@/" : Text)) := by
    rintro (rfl | rfl)
    · exact absurd h (by decide)
    · exact absurd h (by decide)
  have hconfig : ¬path = ("@/config.php" : Text) := by
    rintro rfl
    exact absurd h (by decide)
  have hembedded : Category.hasEmbeddedRoot path = true := by
    unfold Category.hasEmbeddedRoot
    simpa using h
  unfold Category.ofPath?
  rw [if_neg hdir, if_neg hconfig, if_pos hembedded]

-- ================================================================== owners

/-- What remains below the root stands after the anchor. -/
theorem Symbolic.stripRoot?_suffix {path below : Text} (h : stripRoot? path = some below) :
    below <:+ path.tail := by
  unfold stripRoot? at h
  split at h
  · rw [← Option.some.inj h]
    exact List.suffix_cons _ _
  · rw [← Option.some.inj h]
    exact List.suffix_rfl
  · cases h

namespace ComponentTree

/-- The name of a marked plugin stands in its directory, separators and dots
apart. -/
def NameOnTheWay (dir : List Text) (marker : Marker) : Prop :=
  ∀ type name, marker = .pluginRoot type name →
    ∀ c ∈ name, c ≠ '/' → c ≠ '.' → ∃ s ∈ dir, c ∈ s

/-- A character of a directory, a separator or dot apart, stands in one of
its segments. -/
theorem exists_mem_splitDir {dir : Text} {c : Char} (hc : c ∈ dir) (hslash : c ≠ '/')
    (hdot : c ≠ '.') : ∃ s ∈ splitDir dir, c ∈ s := by
  have hjoin : Text.joinSlash (Text.splitSlash dir) = dir := List.intercalate_splitOn '/'
  rw [← hjoin] at hc
  rcases Text.mem_joinSlash hc with heq | ⟨s, hs, hcs⟩
  · exact absurd heq hslash
  · refine ⟨s, List.mem_filter.2 ⟨hs, ?_⟩, hcs⟩
    have hne : s ≠ [] := List.ne_nil_of_mem hcs
    have hnd : s ≠ ['.'] := by
      rintro rfl
      exact hdot (List.mem_singleton.1 hcs)
    simp [hne, hnd]

theorem nameOnTheWay_ofManifests (primary : Manifest) (plugins : List PluginManifest) :
    Marked NameOnTheWay (ofManifests primary plugins) := by
  refine marked_ofManifests ⟨?_, ?_, ?_, ?_⟩ plugins
  · intro type name h
    cases h
  · intro _ _ _ type name h
    cases h
  · intro _ _ type name h
    cases h
  · intro type typeDir name type' name' h c hc hslash hdot
    cases h
    refine exists_mem_splitDir ?_ hslash hdot
    exact List.mem_append_right _ (List.mem_cons_of_mem _ hc)

/-- Where a component has its root, the characters of a plugin's name are
characters of the directory. -/
theorem HasRoot.mem_of_mem_name {tree : ComponentTree} (htree : Marked NameOnTheWay tree)
    {dir : List Text} {type name : Text} (h : HasRoot tree dir (.plugin type name))
    {c : Char} (hc : c ∈ name) (hslash : c ≠ '/') (hdot : c ≠ '.') : ∃ s ∈ dir, c ∈ s := by
  generalize hcomp : Component.plugin type name = component at h
  cases h with
  | root => cases hcomp
  | @subsystem dir name' hmark => cases name' <;> cases hcomp
  | plugin hmark =>
      cases hcomp
      exact htree.marks _ _ hmark type name rfl c hc hslash hdot
  | @ofType dir _ _ hmark =>
      cases hcomp
      exact ⟨name, List.mem_append_right _ (List.mem_singleton.2 rfl), hc⟩

/-- The owner of a path mentions the root only if the path mentions it again. -/
theorem resolve?_rootFree {tree : ComponentTree} (htree : Marked NameOnTheWay tree)
    {path : Text} {owner : Owner} (hpath : '@' ∉ path.tail)
    (h : tree.resolve? path = some owner) : Decision.RootFree owner := by
  obtain ⟨below, hbelow, dir, rest, hall, hrel, hroot⟩ := resolve?_owned h
  have hfree : ∀ s ∈ dir ++ rest, '@' ∉ s := by
    intro s hs hat
    rw [← hall] at hs
    have hmem := Symbolic.mem_of_mem_properSegments hs hat
    exact hpath ((Symbolic.stripRoot?_suffix hbelow).subset hmem)
  refine ⟨fun hat => ?_, fun type name hcomp hat => ?_⟩
  · rw [hrel] at hat
    rcases Text.mem_joinSlash hat with heq | ⟨s, hs, hin⟩
    · exact absurd heq (by decide)
    · exact hfree s (List.mem_append_right _ hs) hin
  · rw [hcomp] at hroot
    obtain ⟨s, hs, hin⟩ := hroot.mem_of_mem_name htree hat (by decide) (by decide)
    exact hfree s (List.mem_append_left _ hs) hin

end ComponentTree

-- ================================================================= results

/-- The situation of a path in a file, as the pipeline puts it together. -/
def Situation.ofPath (tree : ComponentTree) (api file : Text) (flags : PathFlags)
    (path : Text) : Situation :=
  ⟨path, flags, Category.ofPath? path, tree.resolve? path, (tree.fileOwner file).component,
    file, api⟩

/-- A decision can be made about every path. -/
theorem Decision.decide_ofPath_ok {tree : ComponentTree}
    (htree : tree.Marked ComponentTree.NameOnTheWay) (api file : Text) (flags : PathFlags)
    (path : Text) : ∃ d, Decision.decide (.ofPath tree api file flags path) = .ok d := by
  refine decide_ok _ fun hsus target htarget => ?_
  refine ComponentTree.resolve?_rootFree htree (fun hat => ?_) htarget
  exact hsus (Category.ofPath?_of_embedded hat)

theorem Finding.ofExpression_ok {tree : ComponentTree}
    (htree : tree.Marked ComponentTree.NameOnTheWay) (api file : Text)
    (expression : PathExpression) :
    ∃ f, Finding.ofExpression tree api file expression = .ok f := by
  obtain ⟨d, hd⟩ :=
    Decision.decide_ofPath_ok htree api file expression.flags expression.symbolic
  unfold Situation.ofPath at hd
  unfold Finding.ofExpression
  simp only [hd]
  exact ⟨_, rfl⟩

/-- A result of two steps comes from a result of the first. -/
theorem bind_ok {α β ε : Type} {x : Except ε α} {f : α → Except ε β} {y : β}
    (h : (x >>= f) = .ok y) : ∃ z, x = .ok z ∧ f z = .ok y := by
  cases x with
  | error fault => cases h
  | ok z => exact ⟨z, rfl, h⟩

/-- A finding is about its expression, and decides about it in the situation
of its path. -/
theorem Finding.ofExpression_eq_ok {tree : ComponentTree} {api file : Text}
    {expression : PathExpression} {f : Finding}
    (h : Finding.ofExpression tree api file expression = .ok f) :
    f.expression = expression
      ∧ Decision.decide (.ofPath tree api file expression.flags expression.symbolic)
        = .ok f.decision := by
  unfold Finding.ofExpression at h
  dsimp only at h
  unfold Situation.ofPath
  cases hd : Decision.decide ⟨expression.symbolic, expression.flags,
      Category.ofPath? expression.symbolic, tree.resolve? expression.symbolic,
      (tree.fileOwner file).component, file, api⟩ with
  | error fault =>
      rw [hd] at h
      cases h
  | ok d =>
      rw [hd] at h
      cases h
      exact ⟨rfl, rfl⟩

/-- Where every element has a result, so has the list. -/
private theorem mapM_ok {α β ε : Type} {f : α → Except ε β} {xs : List α}
    (h : ∀ x ∈ xs, ∃ y, f x = .ok y) : ∃ ys, xs.mapM f = .ok ys := by
  induction xs with
  | nil => exact ⟨[], rfl⟩
  | cons x xs ih =>
      obtain ⟨y, hy⟩ := h x List.mem_cons_self
      obtain ⟨ys, hys⟩ := ih fun x' hx' => h x' (List.mem_cons_of_mem _ hx')
      refine ⟨y :: ys, ?_⟩
      rw [List.mapM_cons, hy, hys]
      rfl

/-- An analysis finds something out about every expression. -/
theorem Finding.analyze_ok {tree : ComponentTree}
    (htree : tree.Marked ComponentTree.NameOnTheWay) (api : Text) (a : Arena) (file : Text) :
    ∃ findings, Finding.analyze tree api a file = .ok findings :=
  mapM_ok fun expression _ => ofExpression_ok htree api file expression

/-- The findings of a file are about its path expressions, one by one, and
each is the finding for its expression. -/
theorem Finding.map_expression {tree : ComponentTree} {api file : Text} {a : Arena}
    {findings : List Finding} (h : Finding.analyze tree api a file = .ok findings) :
    findings.map Finding.expression = PathExpression.find a file
      ∧ ∀ f ∈ findings, Finding.ofExpression tree api file f.expression = .ok f := by
  unfold Finding.analyze at h
  generalize PathExpression.find a file = expressions at h ⊢
  induction expressions generalizing findings with
  | nil =>
      cases h
      exact ⟨rfl, fun f hf => (by cases hf)⟩
  | cons e expressions ih =>
      rw [List.mapM_cons] at h
      obtain ⟨f, hf, h⟩ := bind_ok h
      obtain ⟨rest, hrest, h⟩ := bind_ok h
      cases h
      obtain ⟨hmap, hall⟩ := ih hrest
      have hexpression := (ofExpression_eq_ok hf).1
      refine ⟨by rw [List.map_cons, hmap, hexpression], fun g hg => ?_⟩
      rcases List.mem_cons.1 hg with rfl | hg
      · rw [hexpression]
        exact hf
      · exact hall g hg

/-- On trees of manifests the findings of a file are always there, and so is
the decision about any path whatever. -/
theorem Finding.analyze_never_faults (primary : Manifest) (plugins : List PluginManifest)
    (api file : Text) :
    (∀ a : Arena, ∃ findings,
      Finding.analyze (.ofManifests primary plugins) api a file = .ok findings)
    ∧ ∀ (path : Text) (flags : PathFlags), ∃ d,
      Decision.decide (.ofPath (.ofManifests primary plugins) api file flags path) = .ok d := by
  have htree := ComponentTree.nameOnTheWay_ofManifests primary plugins
  exact ⟨fun a => analyze_ok htree api a file,
    fun path flags => Decision.decide_ofPath_ok htree api file flags path⟩

end ComponentPaths
