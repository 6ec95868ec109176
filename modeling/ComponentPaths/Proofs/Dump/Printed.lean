/-
What is taken for the dump in what a parser prints.

A parser prints lines of its own first, then a banner, and after the banner the
dump. A dump that was made before comes without them. Either way the text is
searched for the first banner, and from there, or from the start if there is
none, for the first bracket.

The last character of the banner does not occur before in it. So no banner can
begin inside another, and the first one is found at its place whatever is
printed before and after it (`Text.afterFirst?_ends_once`). What follows it is
taken as it is (`fromBracket_blanks`).

A dump without a banner in front is searched all the same, and the strings of a
source file are in its dump. So the whole dump is taken just if no banner occurs
in it (`extract_whole_iff`), and a file that speaks of the banner loses its dump
(`dump_cut_at_string`).
-/
import ComponentPaths.Dump
import ComponentPaths.Proofs.Symbolic.Segments

namespace ComponentPaths

-- ================================================================ searching

namespace Text

variable {part body front rest s t : Text} {last : Char} {p : Char → Bool}

/-- Only a text that starts with a part can lose it. -/
theorem dropHead?_eq_none_iff : dropHead? part t = none ↔ ¬part <+: t := by
  constructor
  · rintro hnone ⟨rest, hrest⟩
    rw [dropHead?_eq_some_iff.2 hrest.symm] at hnone
    cases hnone
  · intro hnot
    cases hhead : dropHead? part t with
    | none => rfl
    | some rest => exact absurd ⟨rest, (dropHead?_eq_some_iff.1 hhead).symm⟩ hnot

theorem afterFirst?_of_dropHead? (h : dropHead? part t = some rest) :
    afterFirst? part t = some rest := by
  cases t with
  | nil => exact h
  | cons c t => rw [afterFirst?, h]

/-- Nothing is found just if the part does not occur. -/
theorem afterFirst?_eq_none_iff : afterFirst? part t = none ↔ ¬part <:+: t := by
  induction t with
  | nil => rw [afterFirst?, dropHead?_eq_none_iff, List.prefix_nil, List.infix_nil]
  | cons c t ih =>
      rw [List.infix_cons_iff, not_or, ← ih, ← dropHead?_eq_none_iff]
      cases hhead : dropHead? part (c :: t) with
      | some after =>
          rw [afterFirst?_of_dropHead? hhead]
          simp
      | none =>
          rw [afterFirst?, hhead]
          simp

/-- A part that ends with a character it has nowhere else does not begin inside of
what comes before it. -/
theorem not_prefix_ends_once (hlast : last ∉ body) (hne : front ≠ [])
    (hfront : ¬body ++ [last] <+: front) (rest : Text) :
    ¬body ++ [last] <+: front ++ (body ++ [last] ++ rest) := by
  intro hbegins
  rcases List.prefix_or_prefix_of_prefix hbegins (List.prefix_append front _) with h | ⟨extra, hextra⟩
  · exact hfront h
  -- the part would have an end of its own among its first characters
  have hend : last ∈ extra := by
    rcases List.eq_nil_or_concat extra with rfl | ⟨init, c, rfl⟩
    · rw [List.append_nil] at hextra
      exact absurd (hextra ▸ List.prefix_rfl) hfront
    · rw [List.concat_eq_append, ← List.append_assoc] at hextra
      obtain ⟨-, hc⟩ := List.append_inj' hextra rfl
      cases hc
      rw [List.concat_eq_append]
      exact List.mem_append_right _ List.mem_cons_self
  have hshort : extra.length ≤ body.length := by
    have hlength := congrArg List.length hextra
    rw [List.length_append, List.length_append, List.length_singleton] at hlength
    have hpos := List.length_pos_iff.2 hne
    omega
  rw [← hextra, List.prefix_append_right_inj, hextra, List.append_assoc] at hbegins
  have hbody := List.prefix_of_prefix_length_le hbegins (List.prefix_append body _) hshort
  exact hlast (hbody.subset hend)

/-- A part that ends with a character it has nowhere else is found where it first
occurs. -/
theorem afterFirst?_ends_once (hlast : last ∉ body) (hfront : ¬body ++ [last] <:+: front) :
    afterFirst? (body ++ [last]) (front ++ (body ++ [last] ++ rest)) = some rest := by
  induction front with
  | nil => exact afterFirst?_of_dropHead? (dropHead?_eq_some_iff.2 rfl)
  | cons c front ih =>
      obtain ⟨hhead, htail⟩ := not_or.1 (mt List.infix_cons_iff.2 hfront)
      have hnone := dropHead?_eq_none_iff.2
        (not_prefix_ends_once hlast (List.cons_ne_nil c front) hhead rest)
      rw [List.cons_append] at hnone ⊢
      rw [afterFirst?, hnone]
      exact ih htail

/-- A part that occurs in a text has a first place there. -/
theorem exists_first (hne : part ≠ []) (h : part <:+: t) :
    ∃ front rest, t = front ++ (part ++ rest) ∧ ¬part <:+: front := by
  induction t with
  | nil => exact absurd (List.infix_nil.1 h) hne
  | cons c t ih =>
      by_cases hbegins : part <+: c :: t
      · obtain ⟨rest, hrest⟩ := hbegins
        exact ⟨[], rest, hrest.symm, fun hnil => hne (List.infix_nil.1 hnil)⟩
      · obtain ⟨front, rest, rfl, hfront⟩ := ih ((List.infix_cons_iff.1 h).resolve_left hbegins)
        refine ⟨c :: front, rest, rfl, fun hmore => ?_⟩
        rcases List.infix_cons_iff.1 hmore with hmore | hmore
        · exact hbegins (hmore.trans (List.prefix_append (c :: front) _))
        · exact hfront hmore

-- ================================================================= trimming

/-- What is dropped at the end may be all of the last part, and go on. -/
theorem dropEndWhile_append (p : Char → Bool) (t s : Text) :
    dropEndWhile p (t ++ s)
      = if dropEndWhile p s = [] then dropEndWhile p t else t ++ dropEndWhile p s := by
  unfold dropEndWhile
  rw [List.reverse_append, List.dropWhile_append]
  simp only [List.isEmpty_iff, List.reverse_eq_nil_iff]
  split
  · rfl
  · rw [List.reverse_append, List.reverse_reverse]

theorem length_dropEndWhile_le (h : s <:+ t) :
    (dropEndWhile p s).length ≤ (dropEndWhile p t).length := by
  obtain ⟨front, rfl⟩ := h
  rw [dropEndWhile_append]
  split
  · next hnil =>
    rw [hnil]
    exact Nat.zero_le _
  · rw [List.length_append]
    exact Nat.le_add_left _ _

/-- A text that ends with a character to keep is kept before whatever follows. -/
theorem dropEndWhile_kept (h : p last = false) (front rest : Text) :
    dropEndWhile p (front ++ [last] ++ rest) = front ++ [last] ++ dropEndWhile p rest := by
  rw [dropEndWhile_append]
  split
  · next hnil =>
    rw [hnil, List.append_nil]
    unfold dropEndWhile
    rw [List.reverse_concat, List.dropWhile_cons_of_neg (by simp [h]), List.reverse_cons,
      List.reverse_reverse]
  · rfl

end Text

namespace Dump

variable {text front blanks json rest : Text}

-- ================================================================= the dump

/-- A text begins as dumps do. -/
def Opens (text : Text) : Prop :=
  ∃ c rest, text = c :: rest ∧ (c = '[' ∨ c = '{')

/-- A dump is taken as it is, but for blanks around it. -/
theorem fromBracket_blanks (hblanks : ∀ c ∈ blanks, Text.isBlank c = true) (hjson : Opens json) :
    fromBracket (blanks ++ json) = Text.trimEnd json := by
  obtain ⟨c, rest, rfl, hc⟩ := hjson
  have hpassed : ∀ b ∈ blanks, (b != '[' && b != '{') = true := by
    intro b hb
    have hblank := hblanks b hb
    rw [Bool.and_eq_true, bne_iff_ne, bne_iff_ne]
    constructor
    · rintro rfl
      exact absurd hblank (by decide)
    · rintro rfl
      exact absurd hblank (by decide)
  unfold fromBracket
  rw [List.dropWhile_append_of_pos hpassed]
  rcases hc with rfl | rfl
  · rfl
  · rfl

/-- Nothing is added to what was printed. -/
theorem length_fromBracket_le (body : Text) :
    (fromBracket body).length ≤ (Text.trimEnd body).length := by
  unfold fromBracket
  split
  · exact Text.length_dropEndWhile_le (List.dropWhile_suffix _)
  · exact Text.length_dropEndWhile_le (List.dropWhile_suffix _)

-- =============================================================== the banner

/-- The last character of the banner is in it once. -/
theorem banner_ends_once :
    ∃ body last, banner = body ++ [last] ∧ last ∉ body ∧ Text.isBlank last = false :=
  ⟨"==> JSON dump", ':', by decide, by decide, by decide⟩

theorem banner_ne_nil : banner ≠ [] := by
  obtain ⟨body, last, hbanner, -⟩ := banner_ends_once
  rw [hbanner]
  exact List.concat_ne_nil last body

/-- The first banner ends what is printed before the dump. -/
theorem extract_banner (hfront : ¬banner <:+: front) (rest : Text) :
    extract (front ++ (banner ++ rest)) = fromBracket rest := by
  obtain ⟨body, last, hbanner, hlast, -⟩ := banner_ends_once
  rw [hbanner] at hfront
  rw [extract, hbanner, Text.afterFirst?_ends_once hlast hfront]
  rfl

/-- The banner is not blank, so that nothing before it is trimmed. -/
theorem trimEnd_banner (front rest : Text) :
    Text.trimEnd (front ++ (banner ++ rest)) = front ++ (banner ++ Text.trimEnd rest) := by
  obtain ⟨body, last, hbanner, -, hkept⟩ := banner_ends_once
  have h := Text.dropEndWhile_kept hkept (front ++ body) rest
  rw [hbanner]
  simp only [List.append_assoc] at h ⊢
  exact h

/-- A dump is taken as a whole just if no banner occurs in it. After a banner that is
the first in what is printed, it is taken as a whole in any case; and what is taken
there begins after that banner, whatever is printed. -/
theorem extract_whole_iff {json : Text} (hjson : Opens json) :
    (extract json = Text.trimEnd json ↔ ¬banner <:+: json)
    ∧ ∀ front, ¬banner <:+: front →
      (∀ rest, extract (front ++ banner ++ rest) = fromBracket rest)
      ∧ ∀ blanks, (∀ c ∈ blanks, Text.isBlank c = true) →
        extract (front ++ banner ++ blanks ++ json) = Text.trimEnd json := by
  refine ⟨⟨fun hwhole hinfix => ?_, fun hfree => ?_⟩,
    fun front hfront => ⟨fun rest => ?_, fun blanks hblanks => ?_⟩⟩
  · -- what is after the banner is too short to be the whole
    obtain ⟨front, rest, rfl, hfront⟩ := Text.exists_first banner_ne_nil hinfix
    have hlength := congrArg List.length hwhole
    rw [extract_banner hfront, trimEnd_banner, List.length_append, List.length_append] at hlength
    have hshort := length_fromBracket_le rest
    have hbanner := List.length_pos_iff.2 banner_ne_nil
    omega
  · rw [extract, Text.afterFirst?_eq_none_iff.2 hfree]
    exact fromBracket_blanks (List.forall_mem_nil _) hjson
  · rw [List.append_assoc, extract_banner hfront]
  · rw [List.append_assoc, List.append_assoc, extract_banner hfront,
      fromBracket_blanks hblanks hjson]

theorem extract_whole_iff_nodeDump :
    Opens "[\"==> Node dump:\"]\n" ∧ ¬banner <:+: "[\"==> Node dump:\"]\n"
    ∧ extract "[\"==> Node dump:\"]\n" = "[\"==> Node dump:\"]"
    ∧ extract "====> File x.php:\n==> JSON dump:\n[\"==> Node dump:\"]\n" = "[\"==> Node dump:\"]"
    ∧ extract "====> File x.php:\n==> JSON dump:none" = fromBracket "none" := by
  have hopens : Opens "[\"==> Node dump:\"]\n" := ⟨_, _, rfl, Or.inl rfl⟩
  have hfree : ¬banner <:+: "[\"==> Node dump:\"]\n" := by
    rw [← Text.afterFirst?_eq_none_iff]
    decide
  have hfront : ¬banner <:+: "====> File x.php:\n" := by
    rw [← Text.afterFirst?_eq_none_iff]
    decide
  obtain ⟨hwhole, hprinted⟩ := extract_whole_iff hopens
  obtain ⟨hcut, hdump⟩ := hprinted "====> File x.php:\n" hfront
  exact ⟨hopens, hfree, hwhole.2 hfree, hdump ['\n'] (List.forall_mem_singleton.2 (by decide)),
    hcut "none"⟩

/-- The dump of a file that prints the banner. -/
def spokenBanner : Text :=
  "[\x7b\"nodeType\":\"Stmt_Echo\",\"exprs\":[\x7b\"nodeType\":\"Scalar_String\",\"value\":\"==> JSON dump:\"\x7d]\x7d]\n"

/-- The banner in a string of the dump is taken for the one before it, and what is
left is no dump. -/
theorem dump_cut_at_string :
    Opens spokenBanner
    ∧ extract spokenBanner = "\"\x7d]\x7d]"
    ∧ extract spokenBanner ≠ Text.trimEnd spokenBanner
    ∧ (lower [] (Text.trimEnd spokenBanner)).toOption.map Arena.size = some 2
    ∧ (lower [] (extract spokenBanner)).toOption.map Arena.size = none := by
  refine ⟨⟨_, _, rfl, Or.inl rfl⟩, ?_⟩
  decide +kernel

end Dump

end ComponentPaths
