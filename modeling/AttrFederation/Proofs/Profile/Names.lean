import Mathlib.Data.List.Induction
import AttrFederation.Profile.ObjectClass

/-!
# Names without repeats

Names of attributes do not distinguish the case of ASCII letters.  Two lists of them are gathered
name by name, and a name that is listed already, in whatever spelling, is not listed again: the pull
attributes of a list of specifiers, and the attributes requested for an object class.

Both come to the names that no name before them equals up to ASCII case (`Text.firstSpellings`):
a name added last joins them if it is new (`Text.firstSpellings_concat`).

* `PullAttributes.parseList_first_name_last_cardinality` — a pull attribute has the name of the
  first specifier that names it and the cardinality of the last one.
* `ObjectClass.requested_covers` — the requested attributes are the key attributes and the pull
  attributes, each once.
-/

namespace AttrFederation

/-! ## First spellings -/

namespace Text

theorem asciiEq_trans_iff {s t u : String} (h : asciiEq s t = true) :
    asciiEq s u = true ↔ asciiEq t u = true := by
  rw [asciiEq_iff] at h
  rw [asciiEq_iff, asciiEq_iff, h]

/-- A name of the list is the name, up to ASCII case. -/
def lists (names : List String) (name : String) : Bool :=
  names.any fun other => asciiEq other name

theorem lists_iff {names : List String} {name : String} :
    lists names name = true ↔ ∃ other ∈ names, asciiEq other name = true :=
  List.any_eq_true

theorem lists_cons (other : String) (names : List String) (name : String) :
    lists (other :: names) name = (asciiEq other name || lists names name) :=
  List.any_cons

@[simp] theorem lists_append (names others : List String) (name : String) :
    lists (names ++ others) name = (lists names name || lists others name) :=
  List.any_append

@[simp] theorem lists_singleton (other name : String) :
    lists [other] name = asciiEq other name := by
  simp [lists]

/-- Spellings of one name are listed alike. -/
theorem lists_congr {names : List String} {name other : String} (h : asciiEq name other = true) :
    lists names name = lists names other := by
  unfold lists
  congr 1
  funext listed
  rw [asciiEq_comm listed name, asciiEq_comm listed other, Bool.eq_iff_iff]
  exact asciiEq_trans_iff h

/-- The names of a list that no name before them equals up to ASCII case. -/
def firstSpellings (names : List String) : List String :=
  (names.zipIdx.filter fun (name, i) => !lists (names.take i) name).map Prod.fst

/-- A name that comes last is the first of its spellings if it is new. -/
theorem firstSpellings_concat (names : List String) (name : String) :
    firstSpellings (names ++ [name]) =
      if lists names name then firstSpellings names else firstSpellings names ++ [name] := by
  have hbefore : ∀ entry ∈ names.zipIdx,
      (!lists ((names ++ [name]).take entry.2) entry.1) =
        !lists (names.take entry.2) entry.1 := by
    rintro ⟨other, i⟩ hentry
    obtain ⟨-, hi, -⟩ := List.mem_zipIdx hentry
    rw [List.take_append_of_le_length (by omega)]
  unfold firstSpellings
  rw [List.zipIdx_append, List.filter_append, List.filter_congr hbefore, List.map_append]
  cases hlists : lists names name <;> simp [hlists]

/-- The first spellings list what the names list. -/
theorem lists_firstSpellings (names : List String) (name : String) :
    lists (firstSpellings names) name = lists names name := by
  induction names using List.reverseRecOn with
  | nil => rfl
  | append_singleton names last ih =>
      rw [firstSpellings_concat, lists_append, lists_singleton, ← ih]
      split
      · next hlast =>
          -- The last name is left out, and whatever equals it is listed before.
          cases hname : asciiEq last name with
          | false => rw [Bool.or_false]
          | true => rw [ih, ← lists_congr hname, hlast, Bool.or_true]
      · rw [lists_append, lists_singleton]

/-- No two first spellings are of one name. -/
theorem pairwise_firstSpellings (names : List String) :
    (firstSpellings names).Pairwise fun a b => asciiEq a b = false := by
  induction names using List.reverseRecOn with
  | nil => exact .nil
  | append_singleton names last ih =>
      rw [firstSpellings_concat]
      split
      · exact ih
      · next hlast =>
          rw [← lists_firstSpellings, lists_iff] at hlast
          refine List.pairwise_append.mpr ⟨ih, List.pairwise_singleton _ _, ?_⟩
          rintro name hname other hother
          rw [List.mem_singleton.mp hother, ← Bool.not_eq_true]
          exact fun heq => hlast ⟨name, hname, heq⟩

end Text

open Text

/-! ## Requested attributes -/

namespace ObjectClass

theorem addName_eq (names : List String) (name : String) :
    addName names name = if lists names name then names else names ++ [name] := rfl

/-- **Gathering names one by one** gives the first spellings. -/
theorem foldl_addName (names : List String) : names.foldl addName [] = firstSpellings names := by
  induction names using List.reverseRecOn with
  | nil => rfl
  | append_singleton names last ih =>
      rw [List.foldl_append, ih, List.foldl_cons, List.foldl_nil, addName_eq,
        lists_firstSpellings, firstSpellings_concat]

/-- **Every configured attribute is requested, once.**  The requested attributes are the names of
the key attributes and then of the pull attributes that no name before them equals up to ASCII case,
in this order and spelling.  So no two of them are equal up to ASCII case, and up to that they are
the names of the key attributes and the pull attributes. -/
theorem requested_covers (c : ObjectClass) :
    c.requested = firstSpellings (c.keys.map KeyAttribute.name ++ c.pulls.names) ∧
    (c.requested.Pairwise fun a b => asciiEq a b = false) ∧
    ∀ name, (∃ requested ∈ c.requested, asciiEq requested name = true) ↔
      (∃ key ∈ c.keys, asciiEq key.name name = true) ∨
        ∃ pull ∈ c.pulls.attributes, asciiEq pull.name name = true := by
  have hrequested : c.requested = firstSpellings (c.keys.map KeyAttribute.name ++ c.pulls.names) :=
    foldl_addName _
  refine ⟨hrequested, ?_, fun name => ?_⟩
  · rw [hrequested]
    exact pairwise_firstSpellings _
  · rw [hrequested, ← lists_iff, lists_firstSpellings, lists_append, Bool.or_eq_true, lists_iff,
      lists_iff, PullAttributes.names]
    simp only [List.mem_map, exists_exists_and_eq_and]

end ObjectClass

/-! ## Pull attributes -/

namespace PullAttributes

/-- An attribute of a listed name takes its place without a change of names. -/
theorem map_name_insertInto (a : PullAttribute) (attributes : List PullAttribute) :
    (insertInto a attributes).map PullAttribute.name =
      ObjectClass.addName (attributes.map PullAttribute.name) a.name := by
  induction attributes with
  | nil => rfl
  | cons b rest ih =>
      rw [ObjectClass.addName_eq] at ih ⊢
      rw [insertInto, List.map_cons, lists_cons]
      split
      · next heq => rw [heq, Bool.true_or, if_pos rfl, List.map_cons]
      · next hne =>
          rw [Bool.not_eq_true] at hne
          rw [List.map_cons, ih, hne, Bool.false_or, List.cons_append]
          split <;> rfl

theorem ofList_concat (as : List PullAttribute) (a : PullAttribute) :
    ofList (as ++ [a]) = (ofList as).insert a :=
  List.foldl_append

/-- The names of a set are the first spellings of those it is made of. -/
theorem names_ofList (as : List PullAttribute) :
    (ofList as).names = firstSpellings (as.map PullAttribute.name) := by
  rw [← ObjectClass.foldl_addName]
  induction as using List.reverseRecOn with
  | nil => rfl
  | append_singleton as a ih =>
      rw [ofList_concat, List.map_append, List.foldl_append, ← ih]
      exact map_name_insertInto a (ofList as).attributes

/-- After an attribute has been added, what is found under its name has its cardinality, and keeps
its spelling. -/
theorem get?_insert (ps : PullAttributes) (a : PullAttribute) (name : String) :
    (ps.insert a).get? name =
      if asciiEq a.name name then some { ((ps.get? name).getD a) with cardinality := a.cardinality }
      else ps.get? name := by
  obtain ⟨attributes⟩ := ps
  simp only [insert, get?]
  induction attributes with
  | nil =>
      rw [insertInto, List.find?_singleton]
      rfl
  | cons b rest ih =>
      rw [insertInto]
      split
      · next hsame =>
          -- Both are found under the same names.
          have hname : asciiEq b.name name = asciiEq a.name name := by
            rw [Bool.eq_iff_iff]
            exact asciiEq_trans_iff hsame
          simp only [List.find?_cons, hname]
          cases asciiEq a.name name <;> simp
      · next hother =>
          simp only [List.find?_cons]
          cases hname : asciiEq b.name name with
          | false => exact ih
          | true =>
              have hne : ¬ asciiEq a.name name = true := by
                rwa [asciiEq_trans_iff hname, asciiEq_comm] at hother
              rw [if_neg hne]

/-- What is found under a name has the spelling of the first attribute of the name. -/
theorem map_name_get?_ofList (as : List PullAttribute) (name : String) :
    ((ofList as).get? name).map PullAttribute.name =
      (as.find? fun a => asciiEq a.name name).map PullAttribute.name := by
  induction as using List.reverseRecOn with
  | nil => rfl
  | append_singleton as a ih =>
      rw [ofList_concat, get?_insert, List.find?_append, List.find?_singleton, Option.map_or, ← ih]
      split
      · cases (ofList as).get? name <;> rfl
      · rw [Option.map_none, Option.or_none]

/-- What is found under a name has the cardinality of the last attribute of the name. -/
theorem map_cardinality_get?_ofList (as : List PullAttribute) (name : String) :
    ((ofList as).get? name).map PullAttribute.cardinality =
      (as.findRev? fun a => asciiEq a.name name).map PullAttribute.cardinality := by
  simp only [List.findRev?_eq_find?_reverse]
  induction as using List.reverseRecOn with
  | nil => rfl
  | append_singleton as a ih =>
      rw [ofList_concat, get?_insert, List.reverse_concat, List.find?_cons]
      split
      · next hname => rw [hname, Option.map_some, Option.map_some]
      · next hname =>
          rw [Bool.not_eq_true] at hname
          rw [hname, ih]

/-- **A name that is listed twice keeps its first place and takes its last cardinality.**  The names
of the pull attributes of a list are those of its well-formed specifiers that no name before them
equals up to ASCII case, in this order and spelling, so no two of them are equal up to ASCII case.
Under any spelling of a name is found an attribute with the spelling of the first specifier that
names it and the cardinality of the last one, and nothing if no specifier names it. -/
theorem parseList_first_name_last_cardinality (raw : String) :
    ((parseList raw).names.Pairwise fun a b => asciiEq a b = false) ∧
    (parseList raw).names = firstSpellings ((specifiers raw).map Prod.snd) ∧
    ∀ name,
      ((parseList raw).get? name).map PullAttribute.name =
        ((specifiers raw).find? fun spec => asciiEq spec.2 name).map Prod.snd ∧
      ((parseList raw).get? name).map PullAttribute.cardinality =
        ((specifiers raw).findRev? fun spec => asciiEq spec.2 name).map fun spec =>
          if spec.1 = "multi" then .multi else .single := by
  have hnames : (parseList raw).names = firstSpellings ((specifiers raw).map Prod.snd) := by
    rw [parseList, names_ofList, List.map_map]
    rfl
  refine ⟨?_, hnames, fun name => ⟨?_, ?_⟩⟩
  · rw [hnames]
    exact pairwise_firstSpellings _
  · rw [parseList, map_name_get?_ofList, List.find?_map, Option.map_map]
    rfl
  · rw [parseList, map_cardinality_get?_ofList, List.findRev?_eq_find?_reverse, ← List.map_reverse,
      List.find?_map, Option.map_map, ← List.findRev?_eq_find?_reverse]
    rfl

/-- The first spelling stays, and the last qualifier counts. -/
example : (parseList "single:mail,single:cn,multi:MAIL").attributes =
    [⟨"mail", .multi⟩, ⟨"cn", .single⟩] := by
  decide +kernel

end PullAttributes

end AttrFederation
