import AttrFederation.Directory.SecurityId
import AttrFederation.Proofs.Bytes
import AttrFederation.Proofs.Text

/-!
# The two forms of a security identifier

An identifier is written in binary by `toBytes` and as a text by `toText`, and both can be read back.

* `ofText?_toText` — every identifier is read back from its text form.
* `ofBytes_eq_ok_iff` — bytes are read as an identifier exactly if they begin with its binary form.
* `text_tells_bytes` — which bytes are read, and what two that are read have in common if their text
  forms are the same: all bytes that count.
-/

namespace AttrFederation

namespace SecurityId

/-! ## The text form -/

/-- The number of an authority in decimal digits, or in hexadecimal ones after `0x`. -/
def readAuthority? : List Char → Option Nat
  | '0' :: 'x' :: digits => Hex.number? digits
  | digits => some (Nat.ofDigitChars 10 digits 0)

/-- The identifier of a text form. -/
def ofText? (text : String) : Option SecurityId :=
  match Text.splitChars '-' text.toList with
  | ['S'] :: ['1'] :: authority :: subs =>
    (readAuthority? authority).map fun n => ⟨n, subs.map fun sub => Nat.ofDigitChars 10 sub 0⟩
  | _ => none

theorem readAuthority?_of_notMem {digits : List Char} (h : 'x' ∉ digits) :
    readAuthority? digits = some (Nat.ofDigitChars 10 digits 0) := by
  unfold readAuthority?
  split
  · simp at h
  · rfl

/-- The two ways of writing an authority cannot be confused: only one has an `x` in it. -/
theorem readAuthority?_authorityText (authority : Nat) :
    readAuthority? (authorityText authority).toList = some authority := by
  unfold authorityText
  split
  · rw [Nat.toString_eq_repr, Nat.toList_repr,
      readAuthority?_of_notMem (Text.notMem_toDigits (by decide) authority),
      Nat.ofDigitChars_ten_toDigits]
  · rw [String.toList_append]
    exact Hex.number?_upperHex authority

theorem dash_notMem_authorityText (authority : Nat) : '-' ∉ (authorityText authority).toList := by
  unfold authorityText
  split
  · rw [Nat.toString_eq_repr, Nat.toList_repr]
    exact Text.notMem_toDigits (by decide) authority
  · have hdigits := Hex.notMem_upperHex (c := '-') (by decide) authority
    simp [hdigits]

/-- The parts of a text form, as characters. -/
def parts (sid : SecurityId) : List (List Char) :=
  ['S'] :: ['1'] :: (authorityText sid.authority).toList :: sid.subAuthorities.map (Nat.toDigits 10)

/-- A text form is its parts, joined by dashes. -/
theorem toList_toText (sid : SecurityId) : sid.toText.toList = Text.joinChars '-' sid.parts := by
  rw [parts, Text.joinChars_cons_eq_append]
  simp [toText, List.flatMap_map, Nat.toString_eq_repr, Nat.toList_repr]

theorem dash_notMem_parts {sid : SecurityId} : ∀ part ∈ sid.parts, '-' ∉ part := by
  simp only [parts, List.forall_mem_cons, List.forall_mem_map]
  refine ⟨by decide, by decide, dash_notMem_authorityText _, fun sub _ => ?_⟩
  exact Text.notMem_toDigits (by decide) sub

/-- **The text form is read back** as the identifier. -/
theorem ofText?_toText (sid : SecurityId) : ofText? sid.toText = some sid := by
  have hparts : Text.splitChars '-' sid.toText.toList = sid.parts := by
    rw [toList_toText]
    exact Text.splitChars_joinChars (List.cons_ne_nil _ _) dash_notMem_parts
  rw [ofText?, hparts]
  simp [parts, readAuthority?_authorityText, Function.comp_def]

/-- An authority of more than 32 bits. -/
example : ofText? "S-1-0x1000000AB-7" = some ⟨0x1000000AB, [7]⟩ := by
  decide +kernel

theorem toText_injective : Function.Injective toText := by
  intro sid other h
  have hread := congrArg ofText? h
  rwa [ofText?_toText, ofText?_toText, Option.some.injEq] at hread

/-! ## The binary form -/

/-- The binary form of an identifier. -/
def toBytes (sid : SecurityId) : List UInt8 :=
  1 :: UInt8.ofNat sid.subAuthorities.length ::
    (Bytes.toBigEndian 6 sid.authority ++ sid.subAuthorities.flatMap Bytes.toLittleEndian)

/-- The numbers of an identifier fit into its binary form. -/
structure Fits (sid : SecurityId) : Prop where
  authority_lt : sid.authority < 256 ^ 6
  length_lt : sid.subAuthorities.length < 256
  sub_lt : ∀ sub ∈ sid.subAuthorities, sub < UInt32.size

theorem length_flatMap_toLittleEndian (subs : List Nat) :
    (subs.flatMap Bytes.toLittleEndian).length = 4 * subs.length := by
  induction subs with
  | nil => rfl
  | cons sub subs ih =>
      simp only [List.flatMap_cons, List.length_append, ih, List.length_cons]
      simp only [Bytes.toLittleEndian, List.length_cons, List.length_nil]
      omega

theorem length_toBytes (sid : SecurityId) :
    sid.toBytes.length = 8 + 4 * sid.subAuthorities.length := by
  simp only [toBytes, List.length_cons, List.length_append, Bytes.length_toBigEndian,
    length_flatMap_toLittleEndian]
  omega

/-- **Sub-authorities are read back** from their bytes, whatever follows. -/
theorem readSubAuthorities_flatMap {subs : List Nat} (h : ∀ sub ∈ subs, sub < UInt32.size)
    (rest : List UInt8) :
    readSubAuthorities subs.length (subs.flatMap Bytes.toLittleEndian ++ rest) = subs := by
  induction subs with
  | nil => rfl
  | cons sub subs ih =>
      rw [List.forall_mem_cons] at h
      rw [List.flatMap_cons, List.append_assoc, Bytes.toLittleEndian]
      simp only [List.cons_append, List.nil_append, List.length_cons, readSubAuthorities]
      rw [Bytes.ofLittleEndian_ofNat, Nat.mod_eq_of_lt h.1, ih h.2]

/-- **Bytes are those of the sub-authorities** that are read from them. -/
theorem flatMap_readSubAuthorities {count : Nat} {bytes : List UInt8}
    (h : 4 * count ≤ bytes.length) :
    (readSubAuthorities count bytes).length = count ∧
      (∀ sub ∈ readSubAuthorities count bytes, sub < UInt32.size) ∧
      (readSubAuthorities count bytes).flatMap Bytes.toLittleEndian <+: bytes := by
  -- Four bytes go with each step of the count, so the induction cannot be on the bytes.
  induction count generalizing bytes with
  | zero => simp [readSubAuthorities]
  | succ count ih =>
      match bytes, h with
      | a :: b :: c :: d :: rest, h =>
          simp only [List.length_cons] at h
          have hrest : 4 * count ≤ rest.length := by omega
          obtain ⟨hlength, hlt, hprefix⟩ := ih hrest
          rw [readSubAuthorities, List.forall_mem_cons, List.flatMap_cons,
            Bytes.toLittleEndian_ofLittleEndian]
          refine ⟨by rw [List.length_cons, hlength], ⟨Bytes.ofLittleEndian_lt a b c d, hlt⟩, ?_⟩
          exact (List.prefix_append_right_inj [a, b, c, d]).mpr hprefix
      | [], h | [_], h | [_, _], h | [_, _, _], h =>
          simp only [List.length_cons, List.length_nil] at h
          omega

/-- Eight bytes or more begin with a revision, a count and an authority. -/
theorem exists_header : ∀ {bytes : List UInt8}, 8 ≤ bytes.length →
    ∃ revision count a b c d e f rest,
      bytes = revision :: count :: a :: b :: c :: d :: e :: f :: rest
  | revision :: count :: a :: b :: c :: d :: e :: f :: rest, _ =>
      ⟨revision, count, a, b, c, d, e, f, rest, rfl⟩
  | [], h | [_], h | [_, _], h | [_, _, _], h | [_, _, _, _], h | [_, _, _, _, _], h
  | [_, _, _, _, _, _], h | [_, _, _, _, _, _, _], h => by simp at h

/-- What is read begins with the binary form of what it is read as. -/
theorem fits_and_prefix_of_ofBytes {bytes : List UInt8} {sid : SecurityId}
    (h : ofBytes bytes = .ok sid) : sid.Fits ∧ sid.toBytes <+: bytes := by
  unfold ofBytes at h
  split at h
  next revision count a b c d e f rest =>
    split at h
    · contradiction
    next hrevision =>
    split at h
    · contradiction
    next hlength =>
    obtain rfl : revision = 1 := by simpa using hrevision
    obtain rfl := Except.ok.inj h
    have hcount := count.toNat_lt
    have hrest : 4 * count.toNat ≤ rest.length := by omega
    obtain ⟨hsubs, hlt, hprefix⟩ := flatMap_readSubAuthorities hrest
    have hauthority : Bytes.toBigEndian 6 (Bytes.ofBigEndian [a, b, c, d, e, f]) =
        [a, b, c, d, e, f] := Bytes.toBigEndian_ofBigEndian [a, b, c, d, e, f]
    constructor
    · exact ⟨Bytes.ofBigEndian_lt [a, b, c, d, e, f], by rw [hsubs]; omega, hlt⟩
    · rw [toBytes, hsubs, UInt8.ofNat_toNat, hauthority]
      exact (List.prefix_append_right_inj [1, count, a, b, c, d, e, f]).mpr hprefix
  next => contradiction

/-- **The binary form is read back** as the identifier, whatever follows. -/
theorem ofBytes_toBytes_append {sid : SecurityId} (h : sid.Fits) (rest : List UInt8) :
    ofBytes (sid.toBytes ++ rest) = .ok sid := by
  have hauthority := Bytes.ofBigEndian_toBigEndian h.authority_lt
  obtain ⟨a, b, c, d, e, f, hsix⟩ :
      ∃ a b c d e f, Bytes.toBigEndian 6 sid.authority = [a, b, c, d, e, f] :=
    ⟨_, _, _, _, _, _, rfl⟩
  have hcount : (UInt8.ofNat sid.subAuthorities.length).toNat = sid.subAuthorities.length := by
    have hlt := h.length_lt
    rw [UInt8.toNat_ofNat']
    omega
  have hlength : ¬ (sid.subAuthorities.flatMap Bytes.toLittleEndian ++ rest).length <
      4 * sid.subAuthorities.length := by
    rw [List.length_append, length_flatMap_toLittleEndian]
    omega
  rw [hsix] at hauthority
  simp only [toBytes, hsix, List.cons_append, List.nil_append, ofBytes, hcount, hauthority,
    readSubAuthorities_flatMap h.sub_lt rest, if_neg hlength, ne_eq, not_true_eq_false, if_false]

/-- **Exactly the binary forms are read**, whatever follows: bytes are read as an identifier if and
only if they begin with its binary form. -/
theorem ofBytes_eq_ok_iff {bytes : List UInt8} {sid : SecurityId} :
    ofBytes bytes = .ok sid ↔ sid.Fits ∧ sid.toBytes <+: bytes := by
  constructor
  · exact fits_and_prefix_of_ofBytes
  · rintro ⟨hfits, rest, rfl⟩
    exact ofBytes_toBytes_append hfits rest

/-! ## Bytes and texts -/

/-- The number of sub-authorities that bytes declare. -/
def declared (bytes : List UInt8) : Nat :=
  (bytes.getD 1 0).toNat

/-- The bytes that count are the binary form of what is read. -/
theorem take_eq_toBytes {bytes : List UInt8} {sid : SecurityId} (h : ofBytes bytes = .ok sid) :
    declared bytes = sid.subAuthorities.length ∧
      bytes.take (8 + 4 * declared bytes) = sid.toBytes := by
  obtain ⟨hfits, rest, rfl⟩ := ofBytes_eq_ok_iff.mp h
  have hdeclared : declared (sid.toBytes ++ rest) = sid.subAuthorities.length := by
    have hlt := hfits.length_lt
    simp only [declared, toBytes, List.cons_append, List.getD_cons_succ, List.getD_cons_zero,
      UInt8.toNat_ofNat']
    omega
  rw [hdeclared, ← length_toBytes, List.take_left]
  exact ⟨rfl, rfl⟩

/-- Bytes are read if they have the length that they declare and the revision is one. -/
theorem isOk_ofBytes_iff {bytes : List UInt8} :
    (ofBytes bytes).isOk = true ↔
      8 ≤ bytes.length ∧ bytes[0]? = some 1 ∧ 8 + 4 * declared bytes ≤ bytes.length := by
  constructor
  · intro h
    cases hbytes : ofBytes bytes with
    | error fault =>
        rw [hbytes] at h
        contradiction
    | ok sid =>
        obtain ⟨hdeclared, -⟩ := take_eq_toBytes hbytes
        obtain ⟨-, rest, rfl⟩ := ofBytes_eq_ok_iff.mp hbytes
        rw [hdeclared, List.length_append, length_toBytes]
        exact ⟨by omega, rfl, by omega⟩
  · rintro ⟨hlength, hrevision, hdeclared⟩
    obtain ⟨revision, count, a, b, c, d, e, f, rest, rfl⟩ := exists_header hlength
    obtain rfl : revision = 1 := Option.some.inj hrevision
    have hrest : ¬ rest.length < 4 * count.toNat := by
      simp only [declared, List.getD_cons_succ, List.getD_cons_zero, List.length_cons] at hdeclared
      omega
    rw [ofBytes, if_neg (not_not_intro rfl), if_neg hrest]
    rfl

/-- **Reading bytes as a text form loses nothing.**  Bytes are read exactly if there are eight of
them, the first is one, and as many follow the eight as the second declares, four for each
sub-authority.  Two that are read have one text form exactly if they declare the same number and are
the same up to there, whatever follows. -/
theorem text_tells_bytes (bytes other : List UInt8) :
    ((ofBytes bytes).isOk = true ↔
      8 ≤ bytes.length ∧ bytes[0]? = some 1 ∧ 8 + 4 * declared bytes ≤ bytes.length) ∧
    ∀ sid sid', ofBytes bytes = .ok sid → ofBytes other = .ok sid' →
      (sid.toText = sid'.toText ↔
        declared bytes = declared other ∧
          bytes.take (8 + 4 * declared bytes) = other.take (8 + 4 * declared other)) := by
  refine ⟨isOk_ofBytes_iff, fun sid sid' hsid hsid' => ?_⟩
  obtain ⟨hdeclared, htake⟩ := take_eq_toBytes hsid
  obtain ⟨hdeclared', htake'⟩ := take_eq_toBytes hsid'
  rw [htake, htake', hdeclared, hdeclared']
  constructor
  · intro htext
    obtain rfl := toText_injective htext
    exact ⟨rfl, rfl⟩
  · rintro ⟨-, hbytes⟩
    -- Without what follows, either is still read.
    have hread := ofBytes_toBytes_append (ofBytes_eq_ok_iff.mp hsid).1 []
    have hread' := ofBytes_toBytes_append (ofBytes_eq_ok_iff.mp hsid').1 []
    rw [hbytes, hread'] at hread
    rw [Except.ok.inj hread]

/-- The greatest authority in decimal digits and the one with the same digits after `0x` have two
text forms, since their bytes are two. -/
theorem text_tells_bytes_of_equal_digits :
    ofBytes [1, 0, 0, 0, 255, 255, 255, 255] = .ok ⟨4294967295, []⟩ ∧
    ofBytes [1, 0, 0, 66, 148, 150, 114, 149] = .ok ⟨0x4294967295, []⟩ ∧
    toText ⟨4294967295, []⟩ ≠ toText ⟨0x4294967295, []⟩ := by
  have hread : ofBytes [1, 0, 0, 0, 255, 255, 255, 255] = .ok ⟨4294967295, []⟩ := by decide
  have hread' : ofBytes [1, 0, 0, 66, 148, 150, 114, 149] = .ok ⟨0x4294967295, []⟩ := by decide
  refine ⟨hread, hread', fun htext => ?_⟩
  have hbytes := (((text_tells_bytes _ _).2 _ _ hread hread').mp htext).2
  exact absurd hbytes (by decide)

end SecurityId

end AttrFederation
