/-
What a decision can be.

`Rewrite s action code` says once, for every rule that puts in new code,
what the code is and what it was made of. A decision either keeps what is
there or is one of these (`decide_cases`), so a law about all replacements
is a case analysis over five rules and never opens the decision itself.
-/
import ComponentPaths.Proofs.Decision.Faultless

namespace ComponentPaths

open Symbolic (properSegments stripRoot? singlePlaceholder?)

-- ================================================================== shapes

namespace Category

/-- What two of the shapes say about the path. -/
def Shaped (path : Text) : Category → Prop
  | .config => path = "@/config.php"
  | .fullRelativePath => isRootAndPlaceholder path = true
  | _ => True

/-- The category of a path that starts at the root says how the path is built. -/
theorem shaped_ofAnchored (path : Text) : Shaped path (ofAnchored path) := by
  unfold ofAnchored
  split
  · split <;> trivial
  · split <;> trivial

/-- So does any category. -/
theorem shaped_of_ofPath? {path : Text} {category : Category}
    (h : ofPath? path = some category) : Shaped path category := by
  unfold ofPath? at h
  split at h
  · cases h
    trivial
  · split at h
    · next hconfig =>
      cases h
      exact hconfig
    · split at h
      · cases h
        trivial
      · split at h
        · cases h
          trivial
        · split at h
          · cases h
            trivial
          · split at h
            · next hroot =>
              cases h
              exact hroot
            · split at h
              · cases h
                trivial
              · split at h
                · cases h
                  exact shaped_ofAnchored path
                · cases h

end Category

-- ============================================================ replacements

namespace Decision

/-- The replacements there are. -/
inductive Rewrite (s : Situation) : Action → Text → Prop
  /-- The configuration file, from a plugin. -/
  | config {code : Text} (category : s.category = some .config)
      (rendered : Relative.expression?
        (Relative.path (Relative.dirSegments s.file) ["config.php"]) = some code) :
      Rewrite s .relativeDirectory code
  /-- A path inside of one plugin. -/
  | within {below code : Text} (strip : stripRoot? s.symbolic = some below)
      (rendered : Relative.expression?
        (Relative.path (Relative.dirSegments s.file) (properSegments below)) = some code) :
      Rewrite s .relativeDirectory code
  /-- One unknown value below the root. -/
  | dynamicRoot (category : s.category = some .fullRelativePath) :
      Rewrite s .rootRelative (Call.rootRelative s.api
        (((stripRoot? s.symbolic).bind singlePlaceholder?).getD []))
  /-- A path inside of a component with an address. -/
  | component {owner : Owner} {action : Action} {code : Text} (target : s.target = some owner)
      (rendered : Call.componentPath s.api owner.component owner.relativePath = .ok code)
      (addressed : action = .componentId
        ∨ action = .dynamicComponentId ∧ owner.component.hasDynamicName = true) :
      Rewrite s action code
  /-- A path in the core, outside of every subsystem. -/
  | core {owner : Owner} {code : Text} (target : s.target = some owner)
      (synthetic : owner.component.isSynthetic = true)
      (rendered : Call.corePath s.api (coreSuffix owner) = .ok code) :
      Rewrite s .corePath code

/-- Nothing is replaced, or one of the rules replaces it. -/
def Outcome (s : Situation) (d : Decision) : Prop :=
  (d.action = .keep ∧ d.replacement = none)
  ∨ ∃ code, d.replacement = some code ∧ Rewrite s d.action code

variable {s : Situation} {d : Decision}

theorem outcome_keep (explanation : Text) (look : Bool) : Outcome s (keep explanation look) :=
  Or.inl ⟨rfl, rfl⟩

theorem outcome_replaceBy {action : Action} {code : Text} (h : Rewrite s action code)
    (explanation : Text) : Outcome s (replaceBy action code explanation) :=
  Or.inr ⟨code, rfl, h⟩

/-- A relative path is a replacement wherever the rule for it allows it. -/
theorem outcome_relative {target : List Text} {explanation otherwise : Text}
    (h : ∀ code, Relative.expression?
        (Relative.path (Relative.dirSegments s.file) target) = some code →
      Rewrite s .relativeDirectory code) :
    Outcome s (relative s.file target explanation otherwise) := by
  unfold relative
  split
  · next code hcode => exact outcome_replaceBy (h code hcode) _
  · exact outcome_keep _ _

/-- Within a plugin, the decision is a path from the file. -/
theorem outcome_withinPlugin : Outcome s (withinPlugin s) := by
  unfold withinPlugin
  split
  · exact outcome_keep _ _
  · next below hbelow => exact outcome_relative fun code hcode => .within hbelow hcode

/-- The configuration file is left to the core, and has a path from a plugin. -/
theorem outcome_forConfig (h : s.category = some .config) : Outcome s (forConfig s) := by
  unfold forConfig
  split
  · exact outcome_keep _ _
  · exact outcome_relative fun code hcode => .config h hcode

/-- A call that may be refused is a replacement once it is there. -/
theorem outcome_call {call : Except Fault Text} {action : Action} {explanation : Text}
    (hrule : ∀ code, call = .ok code → Rewrite s action code)
    (h : call.map (fun code => replaceBy action code explanation) = .ok d) : Outcome s d := by
  cases call with
  | error fault => cases h
  | ok code =>
      rw [← Except.ok.inj h]
      exact outcome_replaceBy (hrule code rfl) _

/-- For an owned path, the decision is a call for its component, or a path from the
file. -/
theorem outcome_forTarget {target : Owner} (ht : s.target = some target)
    (h : forTarget s target = .ok d) : Outcome s d := by
  unfold forTarget at h
  split at h
  · next hdynamic =>
    exact outcome_call (fun code hcode => .component ht hcode (Or.inr ⟨rfl, hdynamic⟩)) h
  · split at h
    · rw [← Except.ok.inj h]
      exact outcome_withinPlugin
    · split at h
      · rw [← Except.ok.inj h]
        exact outcome_keep _ _
      · split at h
        · next hsynthetic =>
          exact outcome_call (fun code hcode => .core ht hsynthetic hcode) h
        · exact outcome_call (fun code hcode => .component ht hcode (Or.inl rfl)) h

theorem outcome_byCategory (h : byCategory s = .ok d) : Outcome s d := by
  unfold byCategory at h
  split at h
  · rw [← Except.ok.inj h]
    exact outcome_keep _ _
  · split at h
    · rw [← Except.ok.inj h]
      exact outcome_keep _ _
    · split at h
      · rw [← Except.ok.inj h]
        exact outcome_keep _ _
      · next hconfig =>
        rw [← Except.ok.inj h]
        exact outcome_forConfig hconfig
      · next hroot =>
        rw [← Except.ok.inj h]
        exact outcome_replaceBy (.dynamicRoot hroot) _
      · unfold byTarget at h
        split at h
        · rw [← Except.ok.inj h]
          exact outcome_keep _ _
        · next target htarget => exact outcome_forTarget htarget h

/-- The surroundings take a replacement away or leave it as it is. -/
theorem outcome_inContext (h : Outcome s d) : Outcome s (inContext s.flags d) := by
  unfold inContext
  split
  · exact outcome_keep _ _
  · split
    · exact h
    · exact h

/-- A decision keeps the expression, or rewrites it in one of the ways there are. -/
theorem decide_cases (h : decide s = .ok d) : Outcome s d := by
  unfold decide at h
  cases hby : byCategory s with
  | error fault =>
      rw [hby] at h
      cases h
  | ok before =>
      rw [hby] at h
      rw [← Except.ok.inj h]
      exact outcome_inContext (outcome_byCategory hby)

end Decision

end ComponentPaths
