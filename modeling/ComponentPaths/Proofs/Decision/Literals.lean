/-
Literal text that is taken for code.

Paths are text, and what a path does not know stands in it as code in braces.
A string literal contributes its text as it is. So a brace that the literal
happens to have is one that opens a placeholder, and what follows it is code
for everybody who reads the path: the category, the owner, the replacement.

No other character does this. For a path of the root and one literal, the
path that is reported has a placeholder just if the literal has an opening
brace, and only then can the decision put code in that was not there before
(`literal_taken_for_code_iff_brace`). Collapsing neither makes up a brace nor
loses one, and the name of an owner has no brace that the path does not have,
on every tree there is (`Decision.brace_of_atRuntime`).
-/
import ComponentPaths.Proofs.Decision.Inputs
import ComponentPaths.Proofs.PathExpression.Discovery
import ComponentPaths.Proofs.PathExpression.Opaque
import ComponentPaths.Proofs.Tree.Loading

namespace ComponentPaths

open Symbolic

-- =============================================================== decisions

/-- On every tree there is, a plugin has its name in its directory. -/
theorem ComponentTree.Built.nameOnTheWay {tree : ComponentTree} (h : tree.Built) :
    tree.Marked NameOnTheWay := by
  cases h with
  | empty => exact marked_empty
  | ofManifests primary plugins => exact nameOnTheWay_ofManifests primary plugins
  | load h =>
      obtain ⟨primary, plugins, rfl⟩ := exists_ofManifests_of_load h
      exact nameOnTheWay_ofManifests primary plugins

/-- The name of an owner has no brace that its path does not have. -/
theorem ComponentTree.brace_of_dynamicName {tree : ComponentTree}
    (htree : tree.Marked NameOnTheWay) {path : Text} {owner : Owner}
    (h : tree.resolve? path = some owner) (hname : owner.component.hasDynamicName = true) :
    '{' ∈ path := by
  obtain ⟨below, hbelow, dir, rest, hall, -, hroot⟩ := resolve?_owned h
  cases hcomponent : owner.component with
  | plugin type name =>
      rw [hcomponent] at hroot hname
      have hbrace : '{' ∈ name := by simpa [Component.hasDynamicName] using hname
      obtain ⟨s, hs, hin⟩ := hroot.mem_of_mem_name htree hbrace (by decide) (by decide)
      have hseg : s ∈ properSegments below := by
        rw [hall]
        exact List.mem_append_left _ hs
      exact List.mem_of_mem_tail
        ((stripRoot?_suffix hbelow).subset (mem_of_mem_properSegments hseg hin))
  | _ =>
      rw [hcomponent] at hname
      cases hname

/-- Actions whose code is put together when it runs. -/
def Action.atRuntime : Action → Bool
  | .dynamicComponentId | .rootRelative => true
  | _ => false

/-- Only a path with a brace gets code that is put together when it runs. -/
theorem Decision.brace_of_atRuntime {tree : ComponentTree}
    (htree : tree.Marked ComponentTree.NameOnTheWay) {api file path : Text}
    {flags : PathFlags} {d : Decision}
    (h : decide (.ofPath tree api file flags path) = .ok d)
    (haction : d.action.atRuntime = true) : '{' ∈ path := by
  rcases decide_cases h with ⟨hkeep, -⟩ | ⟨code, -, hrewrite⟩
  · rw [hkeep] at haction
    cases haction
  · generalize d.action = action at hrewrite haction
    cases hrewrite with
    | config hcategory hcode => cases haction
    | within hbelow hcode => cases haction
    | core htarget hcore hcode => cases haction
    | dynamicRoot hcategory =>
        have hshape : Category.isRootAndPlaceholder path = true :=
          Category.shaped_of_ofPath? hcategory
        obtain ⟨inner, hinner⟩ := Option.isSome_iff_exists.1 hshape
        obtain ⟨below, hbelow, hsingle⟩ := Option.bind_eq_some_iff.1 hinner
        exact List.mem_of_mem_tail
          ((stripRoot?_suffix hbelow).subset (brace_of_singlePlaceholder? hsingle))
    | component htarget hcode haddressed =>
        rcases haddressed with rfl | ⟨-, hname⟩
        · cases haction
        · exact ComponentTree.brace_of_dynamicName htree htarget hname

-- ================================================================ literals

theorem Contribution.total_root {a : Arena} {file : Text} {id : Nat} (hl : a.Linked)
    (h : Mark.configField? a id = some ("dirroot" : Text)) : total a file id = "@" := by
  rw [total_eq hl]
  unfold ofNode
  rw [(Mark.configField?_eq_some h).1]
  unfold ofProperty
  rw [h]
  rfl

namespace Finding

variable {a : Arena} {tree : ComponentTree} {file s : Text} {id left right : Nat}

/-- The path of the root and a literal. -/
theorem symbolic_of_literal (hl : a.Linked) (hpair : Contribution.IsPair a id left right)
    (hleft : Mark.configField? a left = some ("dirroot" : Text))
    (hright : a.kind right = .stringLiteral s) {symbolic : Text}
    (h : (id, symbolic) ∈ PathExpression.paths a file) :
    symbolic = collapseDots ('@' :: s) := by
  rw [PathExpression.paths_eq hl] at h
  obtain ⟨id', -, heq⟩ := List.mem_map.1 h
  cases heq
  rw [hpair.total_eq hl, Contribution.total_root hl hleft,
    Contribution.total_stringLiteral hl hright]
  rfl

theorem exists_finding_about {api : Text} {findings : List Finding}
    (h : analyze tree api a file = .ok findings) (hid : id ∈ PathExpression.reported a file) :
    ∃ f ∈ findings, f.IsAbout a file id := by
  obtain ⟨⟨id', symbolic⟩, hpath, rfl⟩ := List.mem_map.1 hid
  have hfound : PathExpression.ofNode a id' symbolic ∈ findings.map Finding.expression := by
    rw [(map_expression h).1]
    exact List.mem_map.2 ⟨(id', symbolic), hpath, rfl⟩
  obtain ⟨f, hf, hexpression⟩ := List.mem_map.1 hfound
  exact ⟨f, hf, symbolic, hpath, hexpression⟩

/-- A literal after the root is taken for code just where it has an opening
brace. -/
theorem literal_taken_for_code_iff_brace (ha : a.Built) (htree : tree.Built)
    (hpair : Contribution.IsPair a id left right)
    (hleft : Mark.configField? a left = some ("dirroot" : Text))
    (hright : a.kind right = .stringLiteral s)
    (hreported : id ∈ PathExpression.reported a file) (api : Text) :
    ∃ findings, analyze tree api a file = .ok findings
      ∧ (∃ f ∈ findings, f.IsAbout a file id)
      ∧ ∀ f ∈ findings, f.IsAbout a file id →
        f.expression.symbolic = collapseDots ('@' :: s)
        ∧ (hasPlaceholder f.expression.symbolic = true ↔ '{' ∈ s)
        ∧ (f.decision.action = .dynamicComponentId ∨ f.decision.action = .rootRelative →
          '{' ∈ s) := by
  have hl := ha.linked
  have hmarked := htree.nameOnTheWay
  obtain ⟨findings, hfindings⟩ := analyze_ok hmarked api a file
  refine ⟨findings, hfindings, exists_finding_about hfindings hreported, ?_⟩
  rintro f hf ⟨symbolic, hpath, hexpression⟩
  have hsymbolic : f.expression.symbolic = collapseDots ('@' :: s) := by
    rw [hexpression]
    exact symbolic_of_literal hl hpair hleft hright hpath
  have hbrace : '{' ∈ f.expression.symbolic ↔ '{' ∈ s := by
    rw [hsymbolic, brace_mem_collapseDots, List.mem_cons]
    simp
  refine ⟨hsymbolic, hasPlaceholder_iff.trans hbrace, fun haction => hbrace.1 ?_⟩
  have hdecide := (ofExpression_eq_ok ((map_expression hfindings).2 f hf)).2
  refine Decision.brace_of_atRuntime hmarked hdecide ?_
  rcases haction with h | h
  · rw [h]
    rfl
  · rw [h]
    rfl

/-- An include of the root and a literal. -/
def literalInclude (s : Text) : Arena :=
  (Arena.empty (Bytes.ofText ("require $CFG->dirroot.'" ++ s ++ "';")))
    |>.push none "" .expressionStatement ⟨0, 25 + s.length⟩ 1 1
    |>.push (some 0) "expr" (.inclusion .require) ⟨0, 24 + s.length⟩ 1 1
    |>.push (some 1) "expr" .concat ⟨8, 24 + s.length⟩ 1 1
    |>.push (some 2) "left" (.propertyFetch (some "dirroot")) ⟨8, 21⟩ 1 1
    |>.push (some 3) "var" (.variableRef (some "CFG")) ⟨8, 12⟩ 1 1
    |>.push (some 2) "right" (.stringLiteral s) ⟨22, 24 + s.length⟩ 1 1

theorem built_literalInclude (s : Text) : (literalInclude s).Built := by
  refine (Arena.Built.empty _).top
    |>.under ?_ |>.under ?_ |>.under ?_ |>.under ?_ |>.under ?_
  all_goals
    simp only [Arena.size_push]
    omega

theorem literal_taken_for_code_iff_brace_quiz :
    ∃ findings, analyze moduleTree "core" (literalInclude "/mod/quiz/lib.php")
        "mod/assign/view.php" = .ok findings
      ∧ (∃ f ∈ findings, f.IsAbout (literalInclude "/mod/quiz/lib.php") "mod/assign/view.php" 2)
      ∧ ∀ f ∈ findings, f.IsAbout (literalInclude "/mod/quiz/lib.php") "mod/assign/view.php" 2 →
        f.expression.symbolic = "@/mod/quiz/lib.php"
        ∧ hasPlaceholder f.expression.symbolic = false
        ∧ f.decision.action ≠ .dynamicComponentId ∧ f.decision.action ≠ .rootRelative := by
  have hnone : '{' ∉ ("/mod/quiz/lib.php" : Text) := by decide
  obtain ⟨findings, hfindings, hexists, hall⟩ :=
    literal_taken_for_code_iff_brace (built_literalInclude "/mod/quiz/lib.php")
      (.ofManifests _ _ : moduleTree.Built) (by decide +kernel : Contribution.IsPair _ 2 3 5)
      (by decide +kernel) rfl
      (by decide +kernel : 2 ∈ PathExpression.reported _ "mod/assign/view.php") "core"
  refine ⟨findings, hfindings, hexists, fun f hf habout => ?_⟩
  obtain ⟨hsymbolic, hplaceholder, haction⟩ := hall f hf habout
  refine ⟨hsymbolic.trans (by decide +kernel), ?_, fun h => hnone (haction (Or.inl h)),
    fun h => hnone (haction (Or.inr h))⟩
  exact Bool.eq_false_iff.2 fun h => hnone (hplaceholder.1 h)

/-- A literal with braces in it is a directory of that name. The replacement
asks for the plugin that a variable names. -/
theorem braces_become_variable :
    Contribution.IsPair (literalInclude "/mod/\x7b$x\x7d/lib.php") 2 3 5
    ∧ Mark.configField? (literalInclude "/mod/\x7b$x\x7d/lib.php") 3 = some ("dirroot" : Text)
    ∧ (literalInclude "/mod/\x7b$x\x7d/lib.php").kind 5
        = .stringLiteral "/mod/\x7b$x\x7d/lib.php"
    ∧ (analyze moduleTree "core" (literalInclude "/mod/\x7b$x\x7d/lib.php")
        "mod/quiz/view.php").toOption.map
        (fun findings => findings.map fun f =>
          (hasPlaceholder f.expression.symbolic, f.decision.action, f.decision.replacement))
      = some [(true, Action.dynamicComponentId,
          some ("core::get_component_path('mod_' . $x, 'lib.php')" : Text))] := by
  refine ⟨by decide +kernel, by decide +kernel, by decide +kernel, by decide +kernel⟩

end Finding

end ComponentPaths
