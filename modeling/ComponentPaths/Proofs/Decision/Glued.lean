/-
Text right after the root.

`@text` is the root with text written right after it: a neighbour of the root,
whose name begins with that of the root, and nothing below it. The category, the
owner and the decision each take the root off a path on their own, and each of
them takes a separator off only if there is one. So the text is read as a path
below the root, and `@text` is decided as `@/text` is (`decide_glued`).

A decision has two ways to look at a path. One is the path without its root
(`byTarget_respell`), which is the same for both. The other is the category. The
text alone says whether the path has a special shape (`Category.ofText`). Without
one, the category looks at the whole path, and all the categories it can find
there have one rule (`byCategory_ordinary`), which replaces all that is
`Replaceable`. The file `@/config.php` is the only path with a rule that asks for
the separator.
-/
import ComponentPaths.Proofs.Decision.Literals
import ComponentPaths.Proofs.Decision.Warrants

namespace ComponentPaths

open Symbolic (Chunk chunks pieces properSegments singlePlaceholder? stripRoot?)

-- =================================================================== texts

namespace Symbolic

/-- Below the root, a missing separator is not missed. -/
theorem stripRoot?_glued {c : Char} (hc : c ≠ '/') (t : Text) :
    stripRoot? ('@' :: c :: t) = some (c :: t) := by
  unfold stripRoot?
  split
  · next heq =>
    cases heq
    exact absurd rfl hc
  · next heq =>
    cases heq
    rfl
  · next hnone => exact absurd rfl (hnone (c :: t))

theorem singlePlaceholder?_cons {c : Char} (hc : c ≠ '{') (t : Text) :
    singlePlaceholder? (c :: t) = none := by
  unfold singlePlaceholder? pieces
  split
  · next heq =>
    split at heq
    · cases heq
    · rw [chunks_plain hc] at heq
      unfold Chunk.consPlain at heq
      split at heq <;> cases heq
  · rfl

end Symbolic

-- ============================================================== categories

namespace Category

/-- The category of a path below the root, if the text says it. -/
def ofText (t : Text) (otherwise : Category) : Category :=
  if '@' ∈ t then .suspect
  else if hasWildcard t then .glob
  else if (singlePlaceholder? t).isSome then .fullRelativePath
  else otherwise

/-- The categories of a path without a special shape. -/
def isOrdinary : Category → Bool
  | .simpleFile | .simpleDir | .simpleDynamicFile | .filenameSubstitution => true
  | _ => false

/-- The categories of paths below the root are ordinary. -/
theorem isOrdinary_ofAnchored (path : Text) : (ofAnchored path).isOrdinary = true := by
  unfold ofAnchored
  split
  · split <;> rfl
  · split <;> rfl

/-- The root itself is no wildcard. -/
theorem hasWildcard_root {t : Text} (h : '@' ∉ t) : hasWildcard ('@' :: t) = hasWildcard t := by
  have hpieces : pieces ('@' :: t) = .root :: pieces t := by
    rw [Symbolic.pieces_of_not_anchored h]
    rfl
  unfold hasWildcard
  rw [hpieces]
  rfl

/-- A separator in front adds no wildcard. -/
theorem hasWildcard_slash {t : Text} (h : '@' ∉ t) :
    hasWildcard ('/' :: t) = hasWildcard t := by
  have hslash : '@' ∉ '/' :: t := by simpa using h
  unfold hasWildcard
  rw [Symbolic.pieces_of_not_anchored h, Symbolic.pieces_of_not_anchored hslash,
    Symbolic.chunks_plain (by decide)]
  unfold Chunk.consPlain
  split
  · next u rest heq =>
    rw [heq]
    simp [Chunk.toPiece]
  · simp [Chunk.toPiece]

/-- Below the root the text decides, unless the path is one of the three that have
a rule of their own. -/
theorem ofPath?_root {rest t : Text} (hdir : rest ≠ [] ∧ rest ≠ "/")
    (hconfig : rest ≠ "/config.php") (hstrip : stripRoot? ('@' :: rest) = some t)
    (hrest : rest = t ∨ rest = '/' :: t) :
    ofPath? ('@' :: rest) = some (ofText t (ofAnchored ('@' :: rest))) := by
  have hdir' : ¬('@' :: rest = ("@" : Text) ∨ '@' :: rest = ("@/" : Text)) := by
    rintro (heq | heq)
    · exact hdir.1 (List.cons.inj heq).2
    · exact hdir.2 (List.cons.inj heq).2
  have hconfig' : ¬('@' :: rest = ("@/config.php" : Text)) := fun heq =>
    hconfig (List.cons.inj heq).2
  have hembedded : hasEmbeddedRoot ('@' :: rest) = true ↔ '@' ∈ t := by
    rcases hrest with rfl | rfl <;> simp [hasEmbeddedRoot]
  have hwildcard : '@' ∉ t → hasWildcard ('@' :: rest) = hasWildcard t := by
    intro hat
    rcases hrest with rfl | rfl
    · exact hasWildcard_root hat
    · rw [hasWildcard_root (by simpa using hat), hasWildcard_slash hat]
  have hsingle : singlePlaceholder? ('@' :: rest) = none :=
    Symbolic.singlePlaceholder?_cons (by decide) rest
  unfold ofPath? ofText isRootAndPlaceholder
  rw [if_neg hdir', if_neg hconfig', hsingle, hstrip]
  by_cases hat : '@' ∈ t
  · rw [if_pos (hembedded.2 hat), if_pos hat]
  · rw [if_neg (mt hembedded.1 hat), if_neg hat, hwildcard hat]
    simp only [Option.bind_some, apply_ite some]
    rfl

/-- The category of a path without the separator looks at what follows the root, -/
theorem ofPath?_glued {c : Char} (hc : c ≠ '/') (t : Text) :
    ofPath? ('@' :: c :: t) = some (ofText (c :: t) (ofAnchored ('@' :: c :: t))) := by
  have hne : ∀ u : Text, c :: t ≠ '/' :: u := fun u heq => hc (List.cons.inj heq).1
  exact ofPath?_root ⟨by simp, hne []⟩ (hne _) (Symbolic.stripRoot?_glued hc t) (Or.inl rfl)

/-- and so does that of the path with it, unless it is the configuration file. -/
theorem ofPath?_separated {c : Char} {t : Text} (hconfig : c :: t ≠ "config.php") :
    ofPath? ('@' :: '/' :: c :: t)
      = some (ofText (c :: t) (ofAnchored ('@' :: '/' :: c :: t))) := by
  refine ofPath?_root ⟨by simp, fun heq => ?_⟩ (fun heq => ?_) rfl (Or.inr rfl)
  · cases (List.cons.inj heq).2
  · exact hconfig (List.cons.inj heq).2

end Category

-- =============================================================== decisions

/-- Only what is below the root counts for the owner. -/
theorem ComponentTree.resolve?_congr (tree : ComponentTree) {path other : Text}
    (h : stripRoot? path = stripRoot? other) : tree.resolve? path = tree.resolve? other := by
  unfold resolve?
  rw [h]

namespace Decision

variable {s : Situation} {d : Decision}

/-- Without a special shape, a path that reads the root is left to its owner. -/
theorem byCategory_ordinary {category : Category} (h : s.category = some category)
    (hordinary : category.isOrdinary = true) :
    byCategory s = if s.flags.rootConfigUsed = false then
      .ok (keep "does not read the codebase root" false) else byTarget s := by
  unfold byCategory
  rw [h]
  cases category with
  | simpleFile | simpleDir | simpleDynamicFile | filenameSubstitution => rfl
  | _ => cases hordinary

/-- The rules for an owner look at a path without its root only. -/
theorem byTarget_respell {path : Text} {category : Option Category}
    (h : stripRoot? path = stripRoot? s.symbolic) :
    byTarget { s with symbolic := path, category := category } = byTarget s := by
  unfold byTarget forTarget withinPlugin
  simp only [h]

/-- Two spellings of a path are decided alike if the text below the root is one and
says as much about their categories. -/
theorem byCategory_respell {path t : Text} {first second : Category}
    (hstrip : stripRoot? path = stripRoot? s.symbolic)
    (hfirst : first.isOrdinary = true) (hsecond : second.isOrdinary = true)
    (hcategory : s.category = some (Category.ofText t second)) :
    byCategory { s with symbolic := path, category := some (Category.ofText t first) }
      = byCategory s := by
  unfold Category.ofText at hcategory ⊢
  split
  · next hat =>
    rw [if_pos hat] at hcategory
    simp only [byCategory, hcategory]
    rfl
  · next hat =>
    rw [if_neg hat] at hcategory
    split
    · next hwildcard =>
      rw [if_pos hwildcard] at hcategory
      simp only [byCategory, hcategory]
      rfl
    · next hwildcard =>
      rw [if_neg hwildcard] at hcategory
      split
      · next hsingle =>
        rw [if_pos hsingle] at hcategory
        simp only [byCategory, hcategory, forRelativePath, hstrip]
      · next hsingle =>
        rw [if_neg hsingle] at hcategory
        rw [byCategory_ordinary rfl hfirst, byCategory_ordinary hcategory hsecond,
          byTarget_respell hstrip]

-- ============================================================ replacements

/-- The path and the source are in one plugin, whose name is known. -/
def SamePlugin (s : Situation) (owner : Owner) : Prop :=
  owner.component.hasDynamicName = false ∧ s.source = owner.component
    ∧ s.source.isCore = false

instance (s : Situation) (owner : Owner) : Decidable (SamePlugin s owner) :=
  inferInstanceAs (Decidable (_ ∧ _))

/-- The path or the source is in a plugin. -/
def InvolvesPlugin (s : Situation) (owner : Owner) : Prop :=
  s.source.isCore = false ∨ owner.component.isCore = false

/-- What an ordinary path needs to be replaced. The code for another plugin is a
call, which constant expressions do not take. -/
def Replaceable (s : Situation) : Prop :=
  s.flags.rootConfigUsed = true ∧ ∃ owner, s.target = some owner ∧ InvolvesPlugin s owner
    ∧ (SamePlugin s owner ∨ s.flags.inConstantContext = false)

/-- A path from the file can always be written, unless a name mentions the root. -/
theorem relative_eq_replaceBy {target : List Text} (h : ∀ segment ∈ target, '@' ∉ segment)
    (file explanation otherwise : Text) :
    ∃ code, relative file target explanation otherwise
      = replaceBy .relativeDirectory code explanation := by
  have hsteps : ∀ step ∈ Relative.steps (Relative.dirSegments file) target, '@' ∉ step := by
    intro step hstep
    rcases List.mem_append.1 hstep with hup | hdown
    · rw [List.eq_of_mem_replicate hup]
      decide
    · exact h step (List.mem_of_mem_drop hdown)
  have hpath : '@' ∉ '/' :: Relative.path (Relative.dirSegments file) target := by
    intro hat
    rcases List.mem_cons.1 hat with heq | hat
    · exact absurd heq (by decide)
    · rcases Text.mem_joinSlash hat with heq | ⟨step, hstep, hin⟩
      · exact absurd heq (by decide)
      · exact hsteps step hstep hin
  obtain ⟨tail, htail⟩ := Option.isSome_iff_exists.1 (Symbolic.toExpression?_isSome hpath)
  refine ⟨"__DIR__ . " ++ tail, ?_⟩
  unfold relative Relative.expression?
  rw [htail]
  rfl

/-- Nothing is replaced from core to core. All else is, by a call unless it stays in
the plugin. -/
structure Replaces (s : Situation) (owner : Owner) (d : Decision) : Prop where
  some_iff : d.replacement.isSome = true ↔ InvolvesPlugin s owner
  call_iff : d.action.isCall = true ↔ InvolvesPlugin s owner ∧ ¬SamePlugin s owner

/-- A call replaces a path of another plugin. -/
theorem replaces_call {owner : Owner} {call : Except Fault Text} {action : Action}
    {explanation : Text} (hinvolves : InvolvesPlugin s owner) (hother : ¬SamePlugin s owner)
    (haction : action.isCall = true)
    (h : call.map (fun code => replaceBy action code explanation) = .ok d) :
    Replaces s owner d := by
  cases call with
  | error fault => cases h
  | ok code =>
      rw [← Except.ok.inj h]
      exact ⟨iff_of_true rfl hinvolves, iff_of_true haction ⟨hinvolves, hother⟩⟩

/-- A path from the file replaces one of the same plugin. -/
theorem replaces_withinPlugin {owner : Owner} {below : Text}
    (hstrip : stripRoot? s.symbolic = some below) (hfree : '@' ∉ below)
    (hsame : SamePlugin s owner) : Replaces s owner (withinPlugin s) := by
  have hsegments : ∀ segment ∈ properSegments below, '@' ∉ segment := by
    intro segment hsegment hat
    exact hfree (Symbolic.mem_of_mem_properSegments hsegment hat)
  obtain ⟨code, hcode⟩ := relative_eq_replaceBy hsegments s.file
    "reference within the same plugin" "relative path cannot be rendered"
  unfold withinPlugin
  simp only [hstrip, hcode]
  exact ⟨iff_of_true rfl (Or.inl hsame.2.2), iff_of_false nofun fun hother => hother.2 hsame⟩

theorem replaces_keep {owner : Owner} (hcore : ¬InvolvesPlugin s owner) (explanation : Text)
    (look : Bool) : Replaces s owner (keep explanation look) :=
  ⟨iff_of_false nofun hcore, iff_of_false nofun fun hother => hcore hother.1⟩

/-- An owned path is replaced if a plugin is involved. -/
theorem replaces_forTarget {owner : Owner} {below : Text}
    (hstrip : stripRoot? s.symbolic = some below) (hfree : '@' ∉ below)
    (h : forTarget s owner = .ok d) : Replaces s owner d := by
  unfold forTarget at h
  split at h
  · next hdynamic =>
    refine replaces_call (Or.inr (isCore_of_dynamic hdynamic)) (fun hsame => ?_) rfl h
    have hstatic := hsame.1
    rw [hdynamic] at hstatic
    cases hstatic
  · next hdynamic =>
    rw [Bool.not_eq_true] at hdynamic
    split at h
    · next hsame =>
      rw [← Except.ok.inj h]
      exact replaces_withinPlugin hstrip hfree ⟨hdynamic, hsame⟩
    · next hother =>
      have hother' : ¬SamePlugin s owner := fun hsame => hother hsame.2
      split at h
      · next hcore =>
        rw [← Except.ok.inj h]
        refine replaces_keep ?_ _ _
        rw [Bool.and_eq_true] at hcore
        simp [InvolvesPlugin, hcore.1, hcore.2]
      · next hcore =>
        have hinvolves : InvolvesPlugin s owner := by
          simpa only [InvolvesPlugin, Bool.and_eq_true, not_and_or, Bool.not_eq_true] using hcore
        split at h
        · exact replaces_call hinvolves hother' rfl h
        · exact replaces_call hinvolves hother' rfl h

/-- The last look takes away calls in constant expressions, and nothing else. -/
theorem inContext_isSome_iff (flags : PathFlags) (d : Decision) :
    (inContext flags d).replacement.isSome = true ↔
      d.replacement.isSome = true ∧ (flags.inConstantContext = false ∨ d.action.isCall = false) := by
  rcases inContext_cases flags d with ⟨hconstant, hcall, hnone, -⟩ | ⟨hother, hsame, -, -⟩
  · rw [hnone, hconstant, hcall]
    simp
  · rw [hsame]
    exact (and_iff_left hother).symm

/-- By its owner, a path has a replacement just if it is replaceable. -/
theorem byTarget_replaceable {below : Text}
    (hstrip : stripRoot? s.symbolic = some below) (hfree : '@' ∉ below)
    (hroot : s.flags.rootConfigUsed = true) (h : byTarget s = .ok d) :
    (inContext s.flags d).replacement.isSome = true ↔ Replaceable s := by
  rw [inContext_isSome_iff]
  unfold byTarget at h
  split at h
  · next htarget =>
    rw [← Except.ok.inj h]
    refine iff_of_false (fun hkeep => absurd hkeep.1 (by decide)) fun hreplaceable => ?_
    obtain ⟨-, owner, howner, -⟩ := hreplaceable
    rw [htarget] at howner
    cases howner
  · next owner howner =>
    obtain ⟨hsome, hcall⟩ := replaces_forTarget hstrip hfree h
    rw [← Bool.not_eq_true d.action.isCall, hcall, hsome]
    unfold Replaceable
    rw [howner]
    constructor
    · rintro ⟨hinvolves, hplace⟩
      refine ⟨hroot, owner, rfl, hinvolves, ?_⟩
      rcases hplace with hconstant | hsame
      · exact Or.inr hconstant
      · exact Or.inl (Decidable.byContradiction fun hother => hsame ⟨hinvolves, hother⟩)
    · rintro ⟨-, owner', howner', hinvolves, hplace⟩
      cases howner'
      refine ⟨hinvolves, ?_⟩
      rcases hplace with hsame | hconstant
      · exact Or.inr fun hother => hother.2 hsame
      · exact Or.inl hconstant

/-- So has every path of an ordinary category. -/
theorem replacement_ordinary {below : Text} {category : Category}
    (hcategory : s.category = some category) (hordinary : category.isOrdinary = true)
    (hstrip : stripRoot? s.symbolic = some below) (hfree : '@' ∉ below)
    (h : decide s = .ok d) : d.replacement.isSome = true ↔ Replaceable s := by
  obtain ⟨before, hbefore, rfl⟩ := decide_eq_ok h
  rw [byCategory_ordinary hcategory hordinary] at hbefore
  split at hbefore
  · next hroot =>
    rw [← Except.ok.inj hbefore]
    refine iff_of_false (fun hkeep => ?_) fun hreplaceable => ?_
    · exact absurd ((inContext_isSome_iff _ _).1 hkeep).1 (by decide)
    · have hused := hreplaceable.1
      rw [hroot] at hused
      cases hused
  · next hroot =>
    rw [Bool.not_eq_false] at hroot
    exact byTarget_replaceable hstrip hfree hroot hbefore

/-- The situations of the two spellings differ in the path and its category. -/
theorem ofPath_glued {c : Char} (hc : c ≠ '/') (tree : ComponentTree) (t api file : Text)
    (flags : PathFlags) :
    Situation.ofPath tree api file flags ('@' :: c :: t)
      = { Situation.ofPath tree api file flags ('@' :: '/' :: c :: t) with
          symbolic := '@' :: c :: t
          category := some (Category.ofText (c :: t) (Category.ofAnchored ('@' :: c :: t))) } := by
  have hstrip : stripRoot? ('@' :: c :: t) = stripRoot? ('@' :: '/' :: c :: t) :=
    Symbolic.stripRoot?_glued hc t
  unfold Situation.ofPath
  rw [tree.resolve?_congr hstrip, Category.ofPath?_glued hc]

/-- Text right after the root is replaced if its shape needs no review and the path
below the root is replaceable. -/
theorem replacement_glued {tree : ComponentTree} {c : Char} (hslash : c ≠ '/')
    (hbrace : c ≠ '{') {t api file : Text} {flags : PathFlags}
    (h : decide (.ofPath tree api file flags ('@' :: c :: t)) = .ok d) :
    d.replacement.isSome = true ↔
      '@' ∉ c :: t ∧ Category.hasWildcard (c :: t) = false
        ∧ Replaceable (.ofPath tree api file flags ('@' :: '/' :: c :: t)) := by
  have hcategory := Category.ofPath?_glued hslash t
  have hreview : ∀ category, Category.ofPath? ('@' :: c :: t) = some category →
      category.needsManualReview = true → ¬d.replacement.isSome = true := by
    intro category heq hneeds hsome
    have hfree := ((warranted_of_decide h hsome).category category heq).1
    rw [hneeds] at hfree
    cases hfree
  unfold Category.ofText at hcategory
  split at hcategory
  · next hat => exact iff_of_false (hreview _ hcategory rfl) fun hother => hother.1 hat
  · next hat =>
    split at hcategory
    · next hwildcard =>
      refine iff_of_false (hreview _ hcategory rfl) fun hother => ?_
      rw [hwildcard] at hother
      cases hother.2.1
    · next hwildcard =>
      rw [Symbolic.singlePlaceholder?_cons hbrace] at hcategory
      rw [replacement_ordinary hcategory (Category.isOrdinary_ofAnchored _)
        (Symbolic.stripRoot?_glued hslash t) hat h, ofPath_glued hslash]
      exact ⟨fun hready => ⟨hat, Bool.eq_false_iff.2 hwildcard, hready⟩, fun hother => hother.2.2⟩

/-- Text right after the root is decided as if a separator stood before it, and so
it is replaced. The one file that the separator would make the configuration is
replaced as the others are. -/
theorem decide_glued {tree : ComponentTree} (htree : tree.Built) {c : Char} (hslash : c ≠ '/')
    (hbrace : c ≠ '{') (t api file : Text) (flags : PathFlags) :
    (c :: t ≠ "config.php" →
      decide (.ofPath tree api file flags ('@' :: c :: t))
        = decide (.ofPath tree api file flags ('@' :: '/' :: c :: t)))
    ∧ ∃ d, decide (.ofPath tree api file flags ('@' :: c :: t)) = .ok d
      ∧ (d.replacement.isSome = true ↔
          '@' ∉ c :: t ∧ Category.hasWildcard (c :: t) = false
            ∧ Replaceable (.ofPath tree api file flags ('@' :: '/' :: c :: t))) := by
  refine ⟨fun hconfig => ?_, ?_⟩
  · rw [ofPath_glued hslash]
    unfold decide
    rw [byCategory_respell (Symbolic.stripRoot?_glued hslash t)
      (Category.isOrdinary_ofAnchored _) (Category.isOrdinary_ofAnchored _)
      (Category.ofPath?_separated hconfig)]
  · obtain ⟨d, hd⟩ := decide_ofPath_ok htree.nameOnTheWay api file flags ('@' :: c :: t)
    exact ⟨d, hd, replacement_glued hslash hbrace hd⟩

open Finding (analyze literalInclude moduleTree)

/-- The flags of a path that reads the root where the configuration is visible. -/
def readsRoot : PathFlags :=
  ⟨true, false, true, true⟩

theorem decide_glued_quiz :
    decide (.ofPath moduleTree "core" "mod/assign/view.php" readsRoot "@mod/quiz/lib.php")
        = decide (.ofPath moduleTree "core" "mod/assign/view.php" readsRoot "@/mod/quiz/lib.php")
    ∧ ∃ d, decide (.ofPath moduleTree "core" "mod/assign/view.php" readsRoot
          "@mod/quiz/lib.php") = .ok d
      ∧ d.replacement.isSome = true := by
  obtain ⟨hsame, d, hd, hreplaced⟩ := decide_glued (.ofManifests _ _ : moduleTree.Built)
    (by decide : 'm' ≠ '/') (by decide) "od/quiz/lib.php" "core" "mod/assign/view.php" readsRoot
  refine ⟨hsame (by decide), d, hd, hreplaced.2 ⟨by decide, by decide, ?_⟩⟩
  refine ⟨rfl, ⟨.plugin "mod" "quiz", "lib.php"⟩, ?_, Or.inl ?_, Or.inr rfl⟩
  · decide +kernel
  · decide +kernel

/-- A file next to the root, in a directory whose name ends in `mod`, is replaced by
the file of a module. -/
theorem neighbour_replaced :
    (decide (.ofPath moduleTree "core" "mod/assign/view.php" readsRoot
        "@mod/quiz/lib.php")).toOption.map Decision.replacement
      = some (some ("core::get_component_path('mod_quiz', 'lib.php')" : Text))
    ∧ (analyze moduleTree "core" (literalInclude "mod/quiz/lib.php")
        "mod/assign/view.php").toOption.map
        (fun findings => findings.map fun f => (f.expression.symbolic, f.decision.replacement))
      = some [(("@mod/quiz/lib.php" : Text),
          some ("core::get_component_path('mod_quiz', 'lib.php')" : Text))] := by
  refine ⟨by decide +kernel, by decide +kernel⟩

end Decision

end ComponentPaths
