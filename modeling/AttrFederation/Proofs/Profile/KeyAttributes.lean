import AttrFederation.Profile.Specifier
import AttrFederation.Proofs.Text

/-!
# Lists of key attributes

A list of specifiers is cut at its commas and each piece is read alone.  A trimmed piece is a
specifier if it has one colon and something other than blanks after it (`IsSpecifier`); any other
piece gives nothing.

* `specifiers_append` — two lists with a comma between them are read each by itself;
* `specifier?_eq_some_iff` — which pieces are specifiers, and of what;
* `KeyAttribute.parseList_printList` — key attributes that are printed are read back.

Main result: `KeyAttribute.parseList_piecewise`.
-/

namespace AttrFederation

/-! ## One piece -/

/-- The text is a qualifier and a part that is not blank, with the only colon between them. -/
def IsSpecifier (text qualifier part : String) : Prop :=
  text = qualifier ++ ":" ++ part ∧ text.toList.count ':' = 1 ∧ Text.isBlankText part = false

instance (text qualifier part : String) : Decidable (IsSpecifier text qualifier part) :=
  inferInstanceAs (Decidable (_ ∧ _ ∧ _))

/-- A piece specifies its qualifier, and its part after the colon without the blanks around it. -/
theorem specifier?_eq_some_iff {piece qualifier name : String} :
    specifier? piece = some (qualifier, name) ↔
      ∃ part, IsSpecifier (Text.trim piece) qualifier part ∧ Text.trim part = name := by
  have hpair : ∀ before after, Text.split ':' (Text.trim piece) = [before, after] ↔
      Text.trim piece = before ++ ":" ++ after ∧ (Text.trim piece).toList.count ':' = 1 :=
    fun _ _ => Text.split_eq_pair_iff
  unfold specifier? IsSpecifier
  constructor
  · intro h
    split at h
    · next before part hsplit =>
        obtain ⟨htext, hcount⟩ := (hpair before part).mp hsplit
        dsimp only at h
        split at h
        · exact nomatch h
        · next hblank =>
            obtain ⟨rfl, rfl⟩ := Prod.mk.inj (Option.some.inj h)
            refine ⟨part, ⟨htext, hcount, ?_⟩, rfl⟩
            rwa [String.isEmpty_iff, Text.trim_eq_empty_iff, Bool.not_eq_true] at hblank
    · exact nomatch h
  · rintro ⟨part, ⟨htext, hcount, hblank⟩, rfl⟩
    have hempty : ¬ (Text.trim part).isEmpty = true := by
      rw [String.isEmpty_iff, Text.trim_eq_empty_iff, hblank]
      exact Bool.false_ne_true
    rw [(hpair qualifier part).mpr ⟨htext, hcount⟩]
    dsimp only
    rw [if_neg hempty]

/-! ## Lists -/

theorem specifiers_append (a b : String) :
    specifiers (a ++ "," ++ b) = specifiers a ++ specifiers b := by
  unfold specifiers
  rw [← List.filterMap_append, ← Text.split_append]
  rfl

/-- A list without commas is one piece. -/
theorem specifiers_of_notMem {piece : String} (h : ',' ∉ piece.toList) :
    specifiers piece = (specifier? piece).toList := by
  rw [specifiers, Text.split_of_notMem h]
  cases hspec : specifier? piece <;> simp [hspec]

namespace KeyAttribute

/-! ## Printing -/

/-- A key attribute as a specifier. -/
def toSpecifier (k : KeyAttribute) : String :=
  (if k.caseSensitive then "cs:" else "ci:") ++ k.name

/-- Key attributes as a list of specifiers. -/
def printList (keys : List KeyAttribute) : String :=
  Text.join ',' (keys.map toSpecifier)

/-- The name can be printed: it is not empty, without blanks around it and without separators in
it. -/
def Printable (k : KeyAttribute) : Prop :=
  k.name ≠ "" ∧ Text.trim k.name = k.name ∧ ',' ∉ k.name.toList ∧ ':' ∉ k.name.toList

instance (k : KeyAttribute) : Decidable k.Printable :=
  inferInstanceAs (Decidable (_ ∧ _ ∧ _ ∧ _))

variable {k : KeyAttribute}

theorem comma_notMem_toSpecifier (h : k.Printable) : ',' ∉ k.toSpecifier.toList := by
  obtain ⟨-, -, hcomma, -⟩ := h
  unfold toSpecifier
  split <;> simp [hcomma]

/-- A printed key attribute is a specifier, without blanks around it. -/
theorem isSpecifier_toSpecifier (h : k.Printable) :
    IsSpecifier (Text.trim k.toSpecifier) (if k.caseSensitive then "cs" else "ci") k.name := by
  obtain ⟨hne, htrim, -, hcolon⟩ := h
  have hname : k.name.toList ≠ [] := by rwa [Ne, String.toList_eq_nil_iff]
  have hend := (Text.trimChars_eq_self_iff.mp (Text.trim_eq_self_iff.mp htrim)).2
  have hblank : Text.isBlankText k.name = false := by
    rwa [← Bool.not_eq_true, ← Text.trim_eq_empty_iff, htrim]
  have hself : Text.trim k.toSpecifier = k.toSpecifier := by
    rw [Text.trim_eq_self_iff, toSpecifier, String.toList_append]
    split
    · exact Text.trimChars_append (by decide) hname (by decide) hend
    · exact Text.trimChars_append (by decide) hname (by decide) hend
  rw [hself]
  have hcount : k.name.toList.count ':' = 0 := List.count_eq_zero.mpr hcolon
  refine ⟨?_, ?_, hblank⟩
  · unfold toSpecifier
    split <;> rfl
  · rw [toSpecifier, String.toList_append, List.count_append, hcount]
    split <;> rfl

/-- A printed key attribute is read back. -/
theorem parse_toSpecifier (h : k.Printable) :
    (specifier? k.toSpecifier).map ofSpecifier = some k := by
  rw [specifier?_eq_some_iff.mpr ⟨k.name, isSpecifier_toSpecifier h, h.2.1⟩, Option.map_some]
  obtain ⟨name, caseSensitive⟩ := k
  cases caseSensitive <;> rfl

/-- **Printed key attributes are read back.** -/
theorem parseList_printList {keys : List KeyAttribute} (h : ∀ k ∈ keys, k.Printable) :
    parseList (printList keys) = keys := by
  by_cases hkeys : keys = []
  · subst hkeys
    decide
  · have hsplit : Text.split ',' (printList keys) = keys.map toSpecifier := by
      refine Text.split_join (by simpa using hkeys) fun piece hpiece => ?_
      obtain ⟨k, hk, rfl⟩ := List.mem_map.mp hpiece
      exact comma_notMem_toSpecifier (h k hk)
    calc parseList (printList keys)
      _ = keys.filterMap fun k => (specifier? k.toSpecifier).map ofSpecifier := by
          rw [parseList, specifiers, hsplit, List.filterMap_map, List.map_filterMap]
          simp only [Function.comp_apply]
      _ = keys.filterMap some := List.filterMap_congr fun k hk => parse_toSpecifier (h k hk)
      _ = keys := List.filterMap_some

/-! ## Reading -/

/-- The key attribute that a piece specifies: its name is the part after the colon without blanks
around it, and `cs` keeps the case of values. -/
theorem map_specifier?_eq_some_iff {piece : String} {key : KeyAttribute} :
    (specifier? piece).map ofSpecifier = some key ↔ ∃ qualifier part,
      IsSpecifier (Text.trim piece) qualifier part ∧ key = ⟨Text.trim part, qualifier == "cs"⟩ := by
  simp only [Option.map_eq_some_iff, Prod.exists, specifier?_eq_some_iff, ofSpecifier]
  constructor
  · rintro ⟨qualifier, name, ⟨part, hpart, rfl⟩, rfl⟩
    exact ⟨qualifier, part, hpart, rfl⟩
  · rintro ⟨qualifier, part, hpart, rfl⟩
    exact ⟨qualifier, _, ⟨part, hpart, rfl⟩, rfl⟩

/-- **A list of key attributes is read piece by piece.**  Lists with a comma between them are read
each by itself; a piece without commas gives one attribute if it is a specifier when trimmed, and
nothing otherwise; and what is printed is read back. -/
theorem parseList_piecewise :
    (∀ a b : String, parseList (a ++ "," ++ b) = parseList a ++ parseList b) ∧
      (∀ piece : String, ',' ∉ piece.toList →
        (∀ key, parseList piece = [key] ↔ ∃ qualifier part,
          IsSpecifier (Text.trim piece) qualifier part ∧
            key = ⟨Text.trim part, qualifier == "cs"⟩) ∧
        (parseList piece = [] ↔
          ¬ ∃ qualifier part, IsSpecifier (Text.trim piece) qualifier part)) ∧
      ∀ keys : List KeyAttribute, (∀ k ∈ keys, k.Printable) →
        parseList (printList keys) = keys := by
  refine ⟨fun a b => ?_, fun piece hpiece => ?_, fun keys => parseList_printList⟩
  · rw [parseList, specifiers_append, List.map_append, parseList, parseList]
  · have hone : parseList piece = ((specifier? piece).map ofSpecifier).toList := by
      rw [parseList, specifiers_of_notMem hpiece, ← Option.toList_map]
    refine ⟨fun key => ?_, ?_⟩
    · rw [hone, Option.toList_eq_singleton_iff]
      exact map_specifier?_eq_some_iff
    · rw [hone, Option.toList_eq_nil_iff, Option.eq_none_iff_forall_ne_some]
      simp only [Ne, map_specifier?_eq_some_iff]
      exact ⟨fun h ⟨qualifier, part, hpart⟩ => h _ ⟨qualifier, part, hpart, rfl⟩,
        fun h key ⟨qualifier, part, hpart, _⟩ => h ⟨qualifier, part, hpart⟩⟩

/-- A piece without a colon does not affect the next one, which has blanks to trim; and two
attributes are printed and read back. -/
theorem parseList_piecewise_of_uid_sid :
    parseList "uid,cs: sid " = [⟨"sid", true⟩] ∧
      parseList (printList [⟨"uid", true⟩, ⟨"mail", false⟩]) =
        [⟨"uid", true⟩, ⟨"mail", false⟩] := by
  obtain ⟨hcomma, hpiece, hprinted⟩ := parseList_piecewise
  refine ⟨?_, hprinted _ (by decide)⟩
  have huid : parseList "uid" = [] :=
    (hpiece "uid" (by decide)).2.mpr fun ⟨_, _, hpart⟩ => absurd hpart.2.1 (by decide)
  have hsid : parseList "cs: sid " = [⟨"sid", true⟩] :=
    ((hpiece "cs: sid " (by decide)).1 _).mpr ⟨"cs", " sid", by decide, by decide⟩
  have hlist : "uid,cs: sid " = "uid" ++ "," ++ "cs: sid " := by decide
  rw [hlist, hcomma, huid, hsid, List.nil_append]

end KeyAttribute

end AttrFederation
