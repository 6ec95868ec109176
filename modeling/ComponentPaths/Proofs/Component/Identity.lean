/-
Ids identify components.

An id is cut at its first underscore, so the type is read back as it is if it
has none, whatever the name is (`ofId?_append`). Then the ids that can be read
are those of the core library and of the components with an address, and each
is the id of one component (`ofId?_eq_some_iff`).

A call has the id as a quoted string, right after the name of the method. A
reader of the code finds the end of the string by itself, so the call still has
the whole id, and two components never share one (`id_identifies`).
-/
import ComponentPaths.Decision.Call
import ComponentPaths.Proofs.Symbolic.Denotation

namespace ComponentPaths

/-- A text is cut at the first of its separators. -/
theorem Text.splitFirst_eq_some_iff {c : Char} {t before after : Text} :
    Text.splitFirst c t = some (before, after) ↔ t = before ++ c :: after ∧ c ∉ before := by
  induction t generalizing before with
  | nil => simp [Text.splitFirst]
  | cons d t ih =>
      rw [Text.splitFirst]
      by_cases hd : d = c
      · rw [if_pos hd, hd]
        cases before with
        | nil => simp [eq_comm]
        | cons b before =>
            refine iff_of_false (by simp) ?_
            rintro ⟨heq, hnone⟩
            exact hnone ((List.cons.inj heq).1 ▸ List.mem_cons_self)
      · rw [if_neg hd, Option.map_eq_some_iff]
        constructor
        · rintro ⟨⟨front, rest⟩, hsplit, heq⟩
          cases heq
          obtain ⟨rfl, hnone⟩ := ih.1 hsplit
          exact ⟨rfl, List.not_mem_cons_of_ne_of_not_mem (Ne.symm hd) hnone⟩
        · rintro ⟨heq, hnone⟩
          cases before with
          | nil => exact absurd (List.cons.inj heq).1 hd
          | cons b before =>
              obtain ⟨rfl, rfl⟩ := List.cons.inj heq
              exact ⟨(before, after),
                ih.2 ⟨rfl, fun hmem => hnone (List.mem_cons_of_mem _ hmem)⟩, rfl⟩

namespace Component

-- ===================================================================== ids

/-- Components with an address: a name, and for a plugin a type that an id can
spell. -/
def Addressable : Component → Prop
  | .root | .coreLibrary => False
  | .subsystem name => name ≠ []
  | .plugin type name => (type ≠ [] ∧ '_' ∉ type ∧ type ≠ coreWord) ∧ name ≠ []

instance : DecidablePred Addressable
  | .root | .coreLibrary => inferInstanceAs (Decidable False)
  | .subsystem name => inferInstanceAs (Decidable (name ≠ []))
  | .plugin type name =>
    inferInstanceAs (Decidable ((type ≠ [] ∧ '_' ∉ type ∧ type ≠ coreWord) ∧ name ≠ []))

/-- What is read of a type without underscores, an underscore and a name. -/
theorem ofId?_append {type : Text} (h : '_' ∉ type) (name : Text) :
    ofId? (type ++ '_' :: name)
      = if type = [] ∨ name = [] then none
        else if type = coreWord then some (.subsystem name)
        else some (.plugin type name) := by
  have hcore : type ++ '_' :: name ≠ coreWord := by
    intro heq
    have hmem : '_' ∈ coreWord := by
      rw [← heq]
      simp
    exact absurd hmem (by decide)
  unfold ofId?
  rw [if_neg hcore, Text.splitFirst_eq_some_iff.2 ⟨rfl, h⟩]
  simp only [Bool.or_eq_true, List.isEmpty_iff]

/-- The ids that can be read: that of the core library, and those of components
with an address. -/
theorem ofId?_eq_some_iff {s : Text} {c : Component} :
    ofId? s = some c ↔ c.id = s ∧ (c = .coreLibrary ∨ c.Addressable) := by
  constructor
  · intro h
    by_cases hcore : s = coreWord
    · rw [ofId?, if_pos hcore] at h
      cases h
      exact ⟨hcore.symm, Or.inl rfl⟩
    · cases hsplit : Text.splitFirst '_' s with
      | none =>
          rw [ofId?, if_neg hcore, hsplit] at h
          cases h
      | some parts =>
          obtain ⟨type, name⟩ := parts
          obtain ⟨rfl, hnone⟩ := Text.splitFirst_eq_some_iff.1 hsplit
          rw [ofId?_append hnone] at h
          split at h
          · cases h
          next hne =>
          obtain ⟨htype, hname⟩ := not_or.1 hne
          split at h
          · next hcore =>
            cases h
            exact ⟨by rw [hcore]; rfl, Or.inr hname⟩
          · next hcore =>
            cases h
            exact ⟨rfl, Or.inr ⟨⟨htype, hnone, hcore⟩, hname⟩⟩
  · rintro ⟨rfl, rfl | h⟩
    · rfl
    · cases c with
      | root => cases h
      | coreLibrary => cases h
      | subsystem name =>
          have hname : name ≠ [] := h
          rw [id, ofId?_append (by decide), if_neg (by simp [hname, coreWord]), if_pos rfl]
      | plugin type name =>
          obtain ⟨⟨htype, hnone, hcore⟩, hname⟩ := h
          rw [id, ofId?_append hnone, if_neg (by simp [htype, hname]), if_neg hcore]

/-- An id names a plugin by its type and its name. -/
theorem ofId?_plugin {id type name : Text} (h : ofId? id = some (.plugin type name)) :
    id = type ++ '_' :: name :=
  (ofId?_eq_some_iff.1 h).1.symm

end Component

-- ==================================================================== calls

namespace Call

/-- The method that is called for a path inside a component. -/
def componentMethod (api : Text) : Text :=
  api ++ "::get_component_path("

/-- The id comes right after the name of the method. -/
theorem componentPath_eq_ok {api relative code : Text} {c : Component}
    (h : componentPath api c relative = .ok code) :
    ∃ id rest, componentId c = .ok id ∧ code = componentMethod api ++ (id ++ rest) := by
  unfold componentPath at h
  split at h
  · cases h
  · next id hid =>
    refine ⟨id, ?_⟩
    split at h
    · cases h
      exact ⟨_, hid, List.append_assoc _ _ _⟩
    · cases hfragment : fragment relative with
      | error fault =>
          rw [hfragment] at h
          cases h
      | ok inner =>
          rw [hfragment] at h
          cases h
          exact ⟨", " ++ inner ++ ")", hid, by simp [componentMethod]⟩

/-- A component with a known name has its id in the call, as a string. -/
theorem componentId_of_addressable {c : Component} (h : c.Addressable)
    (hknown : c.hasDynamicName = false) : componentId c = .ok (Symbolic.quote c.id) := by
  cases c with
  | root => cases h
  | coreLibrary => cases h
  | subsystem name => rfl
  | plugin type name => rw [componentId, hknown, if_neg Bool.false_ne_true]

/-- A call tells the id of its component. -/
theorem id_eq_of_componentPath {api relative relative' code : Text} {c c' : Component}
    (h : c.Addressable) (h' : c'.Addressable) (hknown : c.hasDynamicName = false)
    (hknown' : c'.hasDynamicName = false) (hcode : componentPath api c relative = .ok code)
    (hcode' : componentPath api c' relative' = .ok code) : c.id = c'.id := by
  obtain ⟨id, rest, hid, rfl⟩ := componentPath_eq_ok hcode
  obtain ⟨id', rest', hid', heq⟩ := componentPath_eq_ok hcode'
  rw [componentId_of_addressable h hknown] at hid
  rw [componentId_of_addressable h' hknown'] at hid'
  cases hid
  cases hid'
  have hstring : Symbolic.quote c.id ++ rest = Symbolic.quote c'.id ++ rest' :=
    List.append_cancel_left heq
  have hread := Symbolic.readLiteral?_quote c.id rest
  rw [hstring, Symbolic.readLiteral?_quote c'.id rest'] at hread
  exact (Prod.mk.inj (Option.some.inj hread)).1.symm

end Call

namespace Component

/-- An id that can be read is the id of what it is read as, and a component with
an address is read back from its id. So calls of one interface with known names
are the same only for one component, even if the paths inside may differ. -/
theorem id_identifies :
    (∀ s c, ofId? s = some c → c.id = s)
    ∧ (∀ c : Component, c.Addressable → ofId? c.id = some c)
    ∧ ∀ (c c' : Component) (api relative relative' code : Text),
        c.Addressable → c'.Addressable →
        c.hasDynamicName = false → c'.hasDynamicName = false →
        Call.componentPath api c relative = .ok code →
        Call.componentPath api c' relative' = .ok code → c = c' := by
  have hback : ∀ c : Component, c.Addressable → ofId? c.id = some c :=
    fun c h => ofId?_eq_some_iff.2 ⟨rfl, Or.inr h⟩
  refine ⟨fun s c h => (ofId?_eq_some_iff.1 h).1, hback, ?_⟩
  intro c c' api relative relative' code h h' hknown hknown' hcode hcode'
  have hid := Call.id_eq_of_componentPath h h' hknown hknown' hcode hcode'
  have hread := hback c h
  rw [hid, hback c' h'] at hread
  exact (Option.some.inj hread).symm

/-- A plugin with quotes, backslashes and underscores in its name, and the
subsystem with that name. -/
theorem id_identifies_quoted :
    (plugin "mod" "it's_a\\'b").Addressable ∧ (subsystem "mod_it's_a\\'b").Addressable
    ∧ ofId? "mod_it's_a\\'b" = some (.plugin "mod" "it's_a\\'b")
    ∧ Call.componentPath "\\core_component" (.plugin "mod" "it's_a\\'b") "lib.php"
      = .ok "\\core_component::get_component_path('mod_it\\'s_a\\\\\\'b', 'lib.php')"
    ∧ Call.componentPath "\\core_component" (.subsystem "mod_it's_a\\'b") "lib.php"
      ≠ .ok "\\core_component::get_component_path('mod_it\\'s_a\\\\\\'b', 'lib.php')" := by
  obtain ⟨-, hback, hcalls⟩ := id_identifies
  have hplugin : (plugin "mod" "it's_a\\'b").Addressable := by decide
  have hsubsystem : (subsystem "mod_it's_a\\'b").Addressable := by decide
  have hcode : Call.componentPath "\\core_component" (.plugin "mod" "it's_a\\'b") "lib.php"
      = .ok "\\core_component::get_component_path('mod_it\\'s_a\\\\\\'b', 'lib.php')" := by
    decide +kernel
  refine ⟨hplugin, hsubsystem, hback _ hplugin, hcode, fun hsame => ?_⟩
  exact absurd (hcalls _ _ _ _ _ _ hplugin hsubsystem (by decide) rfl hcode hsame) (by decide)

end Component

end ComponentPaths
