/-
Every replacement has a warrant.

The rules that forbid a replacement are spread over the whole decision: a
filter on the category at its start, one on the flags, three categories with
an answer of their own, the cases of a known owner, and a last look at the
surroundings that overrides what was decided before. `Warranted` collects
what all of them together leave: what must hold of a situation in which
something is replaced.

Up to the last look, a decision either has no replacement, or has a warrant
and raises no doubt (`Licensed`, one lemma for each rule). The last look can
take a call away and can raise the doubt, and it does nothing else
(`inContext_cases`). What the flags say about the file is told in the module
on surroundings, and `replacement_obeys_rules` puts the two together.
-/
import ComponentPaths.Proofs.Decision.Inputs
import ComponentPaths.Proofs.PathExpression.Surroundings

namespace ComponentPaths

namespace Decision

variable {s : Situation} {d : Decision}

/-- What every replacement needs. -/
structure Warranted (s : Situation) : Prop where
  readsRoot : s.flags.rootConfigUsed = true
  category : ∀ c, s.category = some c → c.needsManualReview = false ∧ c ≠ .dirRoot
  known : s.target = none →
    s.category = some .config ∨ s.category = some .fullRelativePath
  apart : ∀ owner, s.target = some owner → s.source.isCore = true →
    owner.component.isCore = true → s.category = some .fullRelativePath

/-- Nothing is replaced, or it has a warrant and no doubt is raised. -/
def Licensed (s : Situation) (d : Decision) : Prop :=
  d.replacement.isSome = true → Warranted s ∧ d.worthInvestigating = false

-- ============================================================== the rules

/-- There is nothing to license in an expression that is kept. -/
theorem licensed_keep (explanation : Text) (look : Bool) :
    Licensed s (keep explanation look) := by
  intro h
  cases h

theorem licensed_replaceBy (h : Warranted s) (action : Action) (code explanation : Text) :
    Licensed s (replaceBy action code explanation) :=
  fun _ => ⟨h, rfl⟩

/-- A path from the file needs a warrant like any other code. -/
theorem licensed_relative (h : Warranted s) (file : Text) (target : List Text)
    (explanation otherwise : Text) :
    Licensed s (relative file target explanation otherwise) := by
  unfold relative
  split
  · exact licensed_replaceBy h _ _ _
  · exact licensed_keep _ _

theorem licensed_call (h : Warranted s) {call : Except Fault Text} {action : Action}
    {explanation : Text}
    (hcall : call.map (fun code => replaceBy action code explanation) = .ok d) :
    Licensed s d := by
  cases call with
  | error fault => cases hcall
  | ok code =>
      rw [← Except.ok.inj hcall]
      exact licensed_replaceBy h _ _ _

/-- The configuration file needs no owner, and files of the core leave it alone. -/
theorem licensed_forConfig (hroot : s.flags.rootConfigUsed = true)
    (hcategory : s.category = some .config) : Licensed s (forConfig s) := by
  unfold forConfig
  split
  · exact licensed_keep _ _
  · rename_i hcore
    refine licensed_relative ⟨hroot, fun c hc => ?_, fun _ => Or.inl hcategory,
      fun _ _ hsource => absurd hsource hcore⟩ _ _ _ _
    rw [hcategory] at hc
    cases hc
    exact ⟨rfl, by decide⟩

/-- One unknown value below the root has a warrant, if the root is read. -/
theorem licensed_forRelativePath (hroot : s.flags.rootConfigUsed = true)
    (hcategory : s.category = some .fullRelativePath) : Licensed s (forRelativePath s) := by
  refine licensed_replaceBy ⟨hroot, fun c hc => ?_, fun _ => Or.inr hcategory,
    fun _ _ _ _ => hcategory⟩ _ _ _
  rw [hcategory] at hc
  cases hc
  exact ⟨rfl, by decide⟩

/-- A dynamic name is that of a plugin, and no plugin is part of the core. -/
theorem isCore_of_dynamic {component : Component} (h : component.hasDynamicName = true) :
    component.isCore = false := by
  cases component with
  | plugin type name => rfl
  | _ => cases h

/-- So has an owned path, if its category asks for no review and is more than the root.
-/
theorem licensed_forTarget {owner : Owner} (hroot : s.flags.rootConfigUsed = true)
    (hcategory : ∀ c, s.category = some c → c.needsManualReview = false ∧ c ≠ .dirRoot)
    (howner : s.target = some owner) (h : forTarget s owner = .ok d) : Licensed s d := by
  -- with a known owner, all that is left to see is that not both are core
  have hwarrant : s.source.isCore = false ∨ owner.component.isCore = false →
      Warranted s := by
    intro hplugin
    refine ⟨hroot, hcategory, fun hnone => ?_, fun other hother hsource htarget => ?_⟩
    · rw [howner] at hnone
      cases hnone
    · rw [howner] at hother
      cases hother
      rcases hplugin with hplugin | hplugin
      · rw [hplugin] at hsource
        cases hsource
      · rw [hplugin] at htarget
        cases htarget
  unfold forTarget at h
  split at h
  · rename_i hdynamic
    exact licensed_call (hwarrant (Or.inr (isCore_of_dynamic hdynamic))) h
  · split at h
    · rename_i hsame
      rw [← Except.ok.inj h]
      unfold withinPlugin
      split
      · exact licensed_keep _ _
      · exact licensed_relative (hwarrant (Or.inl hsame.2)) _ _ _ _
    · split at h
      · rw [← Except.ok.inj h]
        exact licensed_keep _ _
      · rename_i hcore
        have hplugin : s.source.isCore = false ∨ owner.component.isCore = false := by
          simpa only [Bool.and_eq_true, not_and_or, Bool.not_eq_true] using hcore
        split at h
        · exact licensed_call (hwarrant hplugin) h
        · exact licensed_call (hwarrant hplugin) h

/-- Whatever the category, a replacement has a warrant. -/
theorem licensed_byCategory (h : byCategory s = .ok d) : Licensed s d := by
  unfold byCategory at h
  split at h
  · rw [← Except.ok.inj h]
    exact licensed_keep _ _
  · rename_i hreview
    have hfree : ∀ c, s.category = some c → c.needsManualReview = false := by
      intro c hc
      rw [hc] at hreview
      simpa [Option.filter] using hreview
    split at h
    · rw [← Except.ok.inj h]
      exact licensed_keep _ _
    · rename_i hflag
      have hroot : s.flags.rootConfigUsed = true := by simpa using hflag
      split at h
      · rw [← Except.ok.inj h]
        exact licensed_keep _ _
      · rename_i hconfig
        rw [← Except.ok.inj h]
        exact licensed_forConfig hroot hconfig
      · rename_i hdynamic
        rw [← Except.ok.inj h]
        exact licensed_forRelativePath hroot hdynamic
      · rename_i hbare _ _
        unfold byTarget at h
        split at h
        · rw [← Except.ok.inj h]
          exact licensed_keep _ _
        · rename_i owner howner
          refine licensed_forTarget hroot (fun c hc => ⟨hfree c hc, ?_⟩) howner h
          rintro rfl
          exact hbare hc

-- ========================================================== the last look

/-- A call in a constant expression is taken away. All else stays, with a
doubt where the configuration is read out of sight. -/
theorem inContext_cases (flags : PathFlags) (d : Decision) :
    (flags.inConstantContext = true ∧ d.action.isCall = true
      ∧ (inContext flags d).replacement = none ∧ (inContext flags d).action = .keep)
    ∨ ((flags.inConstantContext = false ∨ d.action.isCall = false)
      ∧ (inContext flags d).replacement = d.replacement
      ∧ (inContext flags d).action = d.action
      ∧ (inContext flags d).worthInvestigating
        = (d.worthInvestigating
          || (d.replacement.isSome && flags.rootConfigUsed && !flags.rootConfigInScope))) := by
  unfold inContext
  split
  · rename_i hcall
    rw [Bool.and_eq_true] at hcall
    exact Or.inl ⟨hcall.1, hcall.2, rfl, rfl⟩
  · rename_i hcall
    have hcall' : flags.inConstantContext = false ∨ d.action.isCall = false := by
      simpa only [Bool.and_eq_true, not_and_or, Bool.not_eq_true] using hcall
    split
    · rename_i hdoubt
      exact Or.inr ⟨hcall', rfl, rfl, by rw [hdoubt, Bool.or_true]⟩
    · rename_i hdoubt
      rw [Bool.not_eq_true] at hdoubt
      exact Or.inr ⟨hcall', rfl, rfl, by rw [hdoubt, Bool.or_false]⟩

/-- A decision is made by category, and then checked against its context. -/
theorem decide_eq_ok (h : decide s = .ok d) :
    ∃ before, byCategory s = .ok before ∧ d = inContext s.flags before := by
  unfold decide at h
  cases hby : byCategory s with
  | error fault =>
      rw [hby] at h
      cases h
  | ok before =>
      rw [hby] at h
      exact ⟨before, rfl, (Except.ok.inj h).symm⟩

theorem replacement_isSome_iff (h : decide s = .ok d) :
    d.replacement.isSome = true ↔ d.action ≠ .keep := by
  rcases decide_cases h with ⟨haction, hnone⟩ | ⟨code, hcode, hrewrite⟩
  · rw [hnone, haction]
    decide
  · rw [hcode]
    refine iff_of_true rfl fun hkeep => ?_
    -- no rule that puts code in is called keeping
    rw [hkeep] at hrewrite
    cases hrewrite with
    | component _ _ haddressed =>
        rcases haddressed with haction | ⟨haction, -⟩
        · cases haction
        · cases haction

/-- The context takes replacements away, and never adds one. -/
theorem warranted_of_decide (h : decide s = .ok d) (hd : d.replacement.isSome = true) :
    Warranted s := by
  obtain ⟨before, hbefore, rfl⟩ := decide_eq_ok h
  rcases inContext_cases s.flags before with ⟨-, -, hnone, -⟩ | ⟨-, hsame, -, -⟩
  · rw [hnone] at hd
    cases hd
  · rw [hsame] at hd
    exact (licensed_byCategory hbefore hd).1

/-- In a constant, no call is put. -/
theorem isCall_eq_false_of_constant (h : decide s = .ok d)
    (hconstant : s.flags.inConstantContext = true) : d.action.isCall = false := by
  obtain ⟨before, -, rfl⟩ := decide_eq_ok h
  rcases inContext_cases s.flags before with ⟨-, -, -, hkeep⟩ | ⟨hcall, -, hsame, -⟩
  · rw [hkeep]
    rfl
  · rw [hconstant] at hcall
    rcases hcall with hcall | hcall
    · cases hcall
    · rw [hsame]
      exact hcall

/-- A replacement is in doubt just where the configuration is out of sight. -/
theorem worthInvestigating_iff (h : decide s = .ok d) (hd : d.replacement.isSome = true) :
    d.worthInvestigating = true ↔ s.flags.rootConfigInScope = false := by
  have hroot := (warranted_of_decide h hd).readsRoot
  obtain ⟨before, hbefore, rfl⟩ := decide_eq_ok h
  rcases inContext_cases s.flags before with ⟨-, -, hnone, -⟩ | ⟨-, hsame, -, hdoubt⟩
  · rw [hnone] at hd
    cases hd
  · rw [hsame] at hd
    rw [hdoubt, (licensed_byCategory hbefore hd).2, hd, hroot]
    simp

end Decision

-- ================================================================ findings

namespace Finding

open Arena (Below Within)
open PathExpression (FunctionAround DeclaresConfig)

variable {a : Arena} {tree : ComponentTree} {api file : Text} {findings : List Finding}

/-- A finding keeps the situation that was decided about. -/
theorem situation_eq {expression : PathExpression} {f : Finding}
    (h : ofExpression tree api file expression = .ok f) :
    Situation.ofPath tree api file expression.flags expression.symbolic
      = ⟨f.expression.symbolic, f.expression.flags, f.category, f.target,
          f.fileOwner.component, f.file, api⟩ := by
  unfold ofExpression at h
  dsimp only at h
  cases hd : Decision.decide ⟨expression.symbolic, expression.flags,
      Category.ofPath? expression.symbolic, tree.resolve? expression.symbolic,
      (tree.fileOwner file).component, file, api⟩ with
  | error fault =>
      rw [hd] at h
      cases h
  | ok d =>
      rw [hd] at h
      cases h
      rfl

/-- Every finding obeys the rules of the decision, told about the file: what
is replaced reads the configuration, has a category that needs no review and
an owner where one is needed, and does not lead from the core to the core.
Below properties, constants and parameters no call is put in, and a
replacement is in doubt just if the function right around it does not make
the configuration visible. -/
theorem replacement_obeys_rules (hb : a.Built) (h : analyze tree api a file = .ok findings) :
    ∀ f ∈ findings, (∃ id, f.IsAbout a file id) ∧ ∀ id, f.IsAbout a file id →
      (f.decision.replacement.isSome = true ↔ f.decision.action ≠ .keep)
      ∧ (f.decision.replacement.isSome = true →
        (∃ v, Within a id v ∧ a.kind v = .variableRef (some "CFG"))
        ∧ f.category ≠ some .singleVar ∧ f.category ≠ some .suspect ∧ f.category ≠ some .glob
        ∧ f.category ≠ some .fullDirRelative ∧ f.category ≠ some .dirRoot
        ∧ (f.target = none →
          f.category = some .config ∨ f.category = some .fullRelativePath)
        ∧ (∀ owner, f.target = some owner →
          f.fileOwner.component.isCore = true → owner.component.isCore = true →
          f.category = some .fullRelativePath))
      ∧ (∀ x, Below a x id →
        a.kind x = .property ∨ a.kind x = .constant ∨ a.kind x = .param →
        f.decision.action = .keep ∨ f.decision.action = .relativeDirectory)
      ∧ (f.decision.replacement.isSome = true →
        (f.decision.worthInvestigating = true
          ↔ ∃ function, FunctionAround a function id ∧ ¬DeclaresConfig a function)) := by
  intro f hf
  have hl := hb.linked
  have hp := hb.placed
  refine ⟨exists_isAbout h hf, ?_⟩
  rintro id ⟨symbolic, -, hexpression⟩
  have hflags : f.expression.flags = PathExpression.flagsOf a id := by
    rw [hexpression]
    rfl
  have hfinding := (map_expression h).2 f hf
  have hdecide := (ofExpression_eq_ok hfinding).2
  rw [situation_eq hfinding, hflags] at hdecide
  refine ⟨Decision.replacement_isSome_iff hdecide, fun hd => ?_, fun x hx hkind => ?_,
    fun hd => ?_⟩
  · obtain ⟨hroot, hcategory, hknown, hapart⟩ := Decision.warranted_of_decide hdecide hd
    refine ⟨(PathExpression.usesConfig_iff hl).1 hroot, ?_, ?_, ?_, ?_, ?_, hknown, hapart⟩
    · exact fun hc => absurd (hcategory _ hc).1 (by decide)
    · exact fun hc => absurd (hcategory _ hc).1 (by decide)
    · exact fun hc => absurd (hcategory _ hc).1 (by decide)
    · exact fun hc => absurd (hcategory _ hc).1 (by decide)
    · exact fun hc => (hcategory _ hc).2 rfl
  · have hconstant : (PathExpression.flagsOf a id).inConstantContext = true := by
      refine (PathExpression.inConstantContext_iff hp hl).2 ⟨x, hx, ?_⟩
      rcases hkind with hkind | hkind | hkind <;> rw [hkind] <;> rfl
    have hcall := Decision.isCall_eq_false_of_constant hdecide hconstant
    cases haction : f.decision.action with
    | keep => exact Or.inl rfl
    | relativeDirectory => exact Or.inr rfl
    | _ =>
        rw [haction] at hcall
        cases hcall
  · rw [Decision.worthInvestigating_iff hdecide hd]
    exact PathExpression.configInScope_eq_false_iff hp hl

/-- A function with a path in the default of its parameter, and an include in
its body. -/
def scopedInclude : Arena :=
  (Arena.empty
    (Bytes.ofText
      "function f($p = $CFG->libdir) \x7brequire $CFG->dirroot.'/mod/quiz/lib.php';\x7d"))
    |>.push none "" .functionLike ⟨0, 74⟩ 1 1
    |>.push (some 0) "params" .param ⟨11, 28⟩ 1 1
    |>.push (some 1) "default" (.propertyFetch (some "libdir")) ⟨16, 28⟩ 1 1
    |>.push (some 2) "var" (.variableRef (some "CFG")) ⟨16, 20⟩ 1 1
    |>.push (some 0) "stmts" .expressionStatement ⟨31, 73⟩ 1 1
    |>.push (some 4) "expr" (.inclusion .require) ⟨31, 72⟩ 1 1
    |>.push (some 5) "expr" .concat ⟨39, 72⟩ 1 1
    |>.push (some 6) "left" (.propertyFetch (some "dirroot")) ⟨39, 52⟩ 1 1
    |>.push (some 7) "var" (.variableRef (some "CFG")) ⟨39, 43⟩ 1 1
    |>.push (some 6) "right" (.stringLiteral "/mod/quiz/lib.php") ⟨53, 72⟩ 1 1

theorem built_scopedInclude : scopedInclude.Built :=
  (Arena.Built.empty _).top
    |>.under (by decide) |>.under (by decide) |>.under (by decide) |>.under (by decide)
    |>.under (by decide) |>.under (by decide) |>.under (by decide) |>.under (by decide)
    |>.under (by decide)

/-- The default keeps its path, since it takes no call. The include is
replaced, with a doubt: its function has no global statement. -/
theorem replacement_obeys_rules_scopedInclude :
    ∃ default body,
      analyze moduleTree "core" scopedInclude "mod/assign/view.php" = .ok [default, body]
      ∧ default.IsAbout scopedInclude "mod/assign/view.php" 2
      ∧ body.IsAbout scopedInclude "mod/assign/view.php" 6
      ∧ (default.decision.action = .keep ∨ default.decision.action = .relativeDirectory)
      ∧ body.decision.replacement
        = some ("core::get_component_path('mod_quiz', 'lib.php')" : Text)
      ∧ (∃ v, Within scopedInclude 6 v
        ∧ scopedInclude.kind v = .variableRef (some "CFG"))
      ∧ body.decision.worthInvestigating = true := by
  have hfound : (analyze moduleTree "core" scopedInclude "mod/assign/view.php").toOption.map
      (fun findings => findings.map fun f => f.decision.replacement)
      = some [none, some ("core::get_component_path('mod_quiz', 'lib.php')" : Text)] := by
    decide +kernel
  cases h : analyze moduleTree "core" scopedInclude "mod/assign/view.php" with
  | error fault =>
      rw [h] at hfound
      cases hfound
  | ok findings =>
      rw [h] at hfound
      obtain ⟨default, rest, rfl, -, hrest⟩ := List.map_eq_cons_iff.1 (Option.some.inj hfound)
      obtain ⟨body, rfl, hcode⟩ := List.map_eq_singleton_iff.1 hrest
      -- which node each of the two is about
      have hpaths : PathExpression.paths scopedInclude "mod/assign/view.php"
          = [(2, ("@/lib" : Text)), (6, ("@/mod/quiz/lib.php" : Text))] := by
        decide +kernel
      have hexpressions := (map_expression h).1
      unfold PathExpression.find at hexpressions
      rw [hpaths] at hexpressions
      obtain ⟨hdefault, hbody⟩ := List.cons.inj hexpressions
      have hdefault : default.IsAbout scopedInclude "mod/assign/view.php" 2 := by
        refine ⟨_, ?_, hdefault⟩
        rw [hpaths]
        exact List.mem_cons_self
      have hbody : body.IsAbout scopedInclude "mod/assign/view.php" 6 := by
        refine ⟨_, ?_, (List.cons.inj hbody).1⟩
        rw [hpaths]
        exact List.mem_cons_of_mem _ List.mem_cons_self
      -- the function has no global statement at all
      have hl := built_scopedInclude.linked
      have haround : FunctionAround scopedInclude 0 6 :=
        (PathExpression.functionAround?_eq_some_iff built_scopedInclude.placed hl).1
          (by decide +kernel)
      have hglobal : ∀ x < scopedInclude.size, scopedInclude.kind x ≠ .globalStatement := by
        decide +kernel
      have hdeclares : ¬DeclaresConfig scopedInclude 0 := by
        rintro ⟨statement, -, hinside, hkind, -⟩
        exact hglobal statement (hinside.below.lt hl).2 hkind
      have hrules := replacement_obeys_rules built_scopedInclude h
      obtain ⟨-, -, hconstant, -⟩ := (hrules default List.mem_cons_self).2 2 hdefault
      obtain ⟨-, hwarrant, -, hdoubt⟩ :=
        (hrules body (List.mem_cons_of_mem _ List.mem_cons_self)).2 6 hbody
      have hsome : body.decision.replacement.isSome = true := by
        rw [hcode]
        rfl
      refine ⟨default, body, rfl, hdefault, hbody, ?_, hcode, (hwarrant hsome).1, ?_⟩
      · exact hconstant 1 (.child (by decide)) (Or.inr (Or.inr rfl))
      · exact (hdoubt hsome).2 ⟨0, haround, hdeclares⟩

end Finding

end ComponentPaths
