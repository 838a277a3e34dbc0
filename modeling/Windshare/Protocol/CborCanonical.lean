import Windshare.Library.Cbor

/-!
# The canonical CBOR validator

The model of `validateCanonicalEncoding` in `protocol/cbor-canonical.ts`. The offset into the
encoding is the list of the bytes behind it. The recursion of `item` is on the nesting that is
left, which is where the depth check stops it.
-/

namespace Windshare.Protocol

open Windshare.Library
open Windshare.Library.Cbor

def maximumCborDepth : Nat := 16
def maximumCborArrayItems : Nat := 2048
def maximumCborMapFields : Nat := 256

def maxSafeInteger : Nat := 2 ^ 53 - 1

/-- The errors that the validator throws; `invalidText` is thrown by the fatal text decoder. -/
inductive CborFault where
  | truncated
  | invalidArgument
  | nonminimalArgument
  | length
  | keyType
  | keyOrder
  | depth
  | simpleValue
  | tag
  | invalidText
  | trailing
deriving DecidableEq, Repr

def argumentWidths : List Nat := [1, 2, 4, 8]
def minimumArguments : List Nat := [24, 256, 65536, 4294967296]

def argument (additional : Nat) (bytes : List UInt8) : Except CborFault (Nat × List UInt8) :=
  if additional ≤ 23 then .ok (additional, bytes)
  else
    match argumentWidths[additional - 23 - 1]? with
    | none => .error .invalidArgument
    | some width =>
      if width > bytes.length then .error .invalidArgument
      else if ofBigEndian (bytes.take width) < minimumArguments.getD (additional - 23 - 1) 0 then
        .error .nonminimalArgument
      else .ok (ofBigEndian (bytes.take width), bytes.drop width)

/-- The fatal `TextDecoder` accepts exactly valid UTF-8. -/
def validText (bytes : List UInt8) : Bool := (ByteArray.mk bytes.toArray).validateUTF8

/-- The loop of an array. -/
def items (item : List UInt8 → Except CborFault (List UInt8)) :
    Nat → List UInt8 → Except CborFault (List UInt8)
  | 0, bytes => .ok bytes
  | count + 1, bytes =>
    match item bytes with
    | .error e => .error e
    | .ok rest => items item count rest

def fieldKey (previous : Int) : List UInt8 → Except CborFault (Nat × List UInt8)
  | [] => .error .truncated
  | keyHeader :: bytes =>
    if keyHeader.toNat / 32 ≠ 0 then .error .keyType
    else
      match argument (keyHeader.toNat % 32) bytes with
      | .error e => .error e
      | .ok (key, rest) =>
        if key > maxSafeInteger then .error .length
        else if (key : Int) ≤ previous then .error .keyOrder
        else .ok (key, rest)

/-- The loop of a map. -/
def fields (item : List UInt8 → Except CborFault (List UInt8)) :
    Nat → Int → List UInt8 → Except CborFault (List UInt8)
  | 0, _, bytes => .ok bytes
  | count + 1, previous, bytes =>
    match fieldKey previous bytes with
    | .error e => .error e
    | .ok (key, rest) =>
      match item rest with
      | .error e => .error e
      | .ok rest => fields item count key rest

/-- The rest of an item behind its argument, for the major types below six. -/
def content (item : List UInt8 → Except CborFault (List UInt8)) (major value : Nat)
    (bytes : List UInt8) : Except CborFault (List UInt8) :=
  if major ≤ 1 then .ok bytes
  else if major = 2 ∨ major = 3 then
    if value > bytes.length then .error .length
    else if major = 3 ∧ validText (bytes.take value) = false then .error .invalidText
    else .ok (bytes.drop value)
  else if major = 4 then
    if value > maximumCborArrayItems then .error .length else items item value bytes
  else if value > maximumCborMapFields then .error .length
  else fields item value (-1) bytes

/-- `item`, where `r` more levels are allowed. -/
def item : Nat → List UInt8 → Except CborFault (List UInt8)
  | 0, _ => .error .depth
  | _ + 1, [] => .error .truncated
  | r + 1, initial :: bytes =>
    let major := initial.toNat / 32
    if major = 7 then
      if initial ≠ 0xf4 ∧ initial ≠ 0xf5 ∧ initial ≠ 0xf6 then .error .simpleValue
      else .ok bytes
    else if major = 6 then .error .tag
    else
      match argument (initial.toNat % 32) bytes with
      | .error e => .error e
      | .ok (value, rest) => content (item r) major value rest

/-- `validateCanonicalEncoding`. Depths zero to the maximum are allowed. -/
def validateCanonicalEncoding (encoded : List UInt8) : Except CborFault Unit :=
  match item (maximumCborDepth + 1) encoded with
  | .error e => .error e
  | .ok rest => if rest ≠ [] then .error .trailing else .ok ()

/-! ### What is accepted -/

def protocolLimits : Limits := ⟨maximumCborArrayItems, maximumCborMapFields, maxSafeInteger⟩

theorem argument_eq {additional : Nat} (h : additional < 32) (bytes : List UInt8) :
    (argument additional bytes).toOption = readArgument additional bytes := by
  unfold argument readArgument
  by_cases hinline : additional ≤ 23
  · rw [if_pos hinline, if_pos (Nat.lt_succ_of_le hinline)]
    rfl
  rw [if_neg hinline, if_neg (by omega)]
  have hcases : additional = 24 ∨ additional = 25 ∨ additional = 26 ∨ additional = 27 ∨
      28 ≤ additional := by omega
  have hread : ∀ width least : Nat,
      (if width > bytes.length then (.error .invalidArgument : Except CborFault (Nat × List UInt8))
        else if ofBigEndian (bytes.take width) < least then .error .nonminimalArgument
        else .ok (ofBigEndian (bytes.take width), bytes.drop width)).toOption =
      if bytes.length < width ∨ ofBigEndian (bytes.take width) < least then none
      else some (ofBigEndian (bytes.take width), bytes.drop width) := by
    intro width least
    by_cases hshort : width > bytes.length
    · rw [if_pos hshort, if_pos (.inl hshort)]
      rfl
    by_cases hsmall : ofBigEndian (bytes.take width) < least
    · rw [if_neg hshort, if_pos hsmall, if_pos (.inr hsmall)]
      rfl
    · rw [if_neg hshort, if_neg hsmall, if_neg (not_or.mpr ⟨hshort, hsmall⟩)]
      rfl
  obtain rfl | rfl | rfl | rfl | hlarge := hcases
  · exact hread 1 24
  · exact hread 2 256
  · exact hread 4 65536
  · exact hread 8 4294967296
  · have hwidth : argumentWidths[additional - 23 - 1]? = none :=
      List.getElem?_eq_none (by change 4 ≤ _; omega)
    have hform : longForm additional = none := by
      unfold longForm
      split
      all_goals first | omega | rfl
    rw [hwidth, hform]
    rfl

theorem argument_ok_iff {b : UInt8} {major n : Nat} {bytes rest : List UInt8}
    (hb : b.toNat / 32 = major) : argument (b.toNat % 32) bytes = .ok (n, rest) ↔
      n < 2 ^ 64 ∧ b :: bytes = head major n ++ rest := by
  rw [← readArgument_iff hb, ← argument_eq (Nat.mod_lt _ (by decide))]
  cases argument (b.toNat % 32) bytes with
  | error => exact ⟨nofun, nofun⟩
  | ok =>
    exact ⟨fun h => congrArg Except.toOption h, fun h => congrArg Except.ok (Option.some.inj h)⟩

theorem validText_iff {bytes : List UInt8} :
    validText bytes = true ↔ ∃ s : String, utf8 s = bytes := by
  unfold validText
  rw [ByteArray.validateUTF8_eq_true_iff]
  constructor
  · exact fun h => ⟨.ofByteArray ⟨bytes.toArray⟩ h, List.toList_toArray⟩
  · rintro ⟨s, rfl⟩
    have hbytes : ByteArray.mk (utf8 s).toArray = s.toByteArray :=
      ByteArray.ext (Array.toArray_toList)
    rw [hbytes]
    exact s.isValidUTF8

/-- The parser reads exactly the encodings of the values with the property. -/
def Reads (item : List UInt8 → Except CborFault (List UInt8)) (P : Value → Prop) : Prop :=
  ∀ bytes rest, item bytes = .ok rest ↔ ∃ v, P v ∧ bytes = encode v ++ rest

section Loops

variable {item : List UInt8 → Except CborFault (List UInt8)} {P : Value → Prop}
  {bytes rest : List UInt8}

theorem items_ok_iff (hitem : Reads item P) {count : Nat} :
    items item count bytes = .ok rest ↔
      ∃ values : List Value, values.length = count ∧ (∀ v ∈ values, P v) ∧
        bytes = encodeItems values ++ rest := by
  induction count generalizing bytes with
  | zero =>
    constructor
    · intro h
      cases h
      exact ⟨[], rfl, nofun, rfl⟩
    · rintro ⟨values, hlength, -, rfl⟩
      rw [List.length_eq_zero_iff.mp hlength]
      rfl
  | succ count ih =>
    unfold items
    constructor
    · intro h
      split at h
      · cases h
      rename_i rest' hfirst
      obtain ⟨v, hv, rfl⟩ := (hitem _ _).mp hfirst
      obtain ⟨values, hlength, hvalues, rfl⟩ := ih.mp h
      refine ⟨v :: values, congrArg Nat.succ hlength, List.forall_mem_cons.mpr ⟨hv, hvalues⟩, ?_⟩
      rw [encodeItems, List.append_assoc]
    · rintro ⟨values, hlength, hvalues, hbytes⟩
      cases values with
      | nil => cases hlength
      | cons v values =>
        rw [List.forall_mem_cons] at hvalues
        rw [encodeItems, List.append_assoc] at hbytes
        rw [(hitem _ _).mpr ⟨v, hvalues.1, hbytes⟩]
        exact ih.mpr ⟨values, Nat.succ.inj hlength, hvalues.2, rfl⟩

theorem fieldKey_ok_iff {previous : Int} {key : Nat} :
    fieldKey previous bytes = .ok (key, rest) ↔
      key < 2 ^ 64 ∧ key ≤ maxSafeInteger ∧ previous < key ∧ bytes = head 0 key ++ rest := by
  constructor
  · intro h
    unfold fieldKey at h
    split at h
    · cases h
    split at h
    · cases h
    rename_i htype
    split at h
    · cases h
    rename_i n rest' hargument
    split at h
    · cases h
    rename_i hsafe
    split at h
    · cases h
    rename_i horder
    cases h
    obtain ⟨hlt, hbytes⟩ := (argument_ok_iff (not_not.mp htype)).mp hargument
    exact ⟨hlt, Nat.not_lt.mp hsafe, Int.not_le.mp horder, hbytes⟩
  · rintro ⟨hlt, hsafe, horder, rfl⟩
    obtain ⟨b, tail, hhead, hb⟩ := head_eq_cons (show 0 < 8 by decide) hlt
    have hargument : argument (b.toNat % 32) (tail ++ rest) = .ok (key, rest) :=
      (argument_ok_iff hb).mpr ⟨hlt, by rw [hhead]; rfl⟩
    rw [hhead, List.cons_append]
    unfold fieldKey
    dsimp only
    rw [if_neg (not_not.mpr hb), hargument]
    dsimp only
    rw [if_neg (Nat.not_lt.mpr hsafe), if_neg (Int.not_le.mpr horder)]

theorem fields_ok_iff (hitem : Reads item P) {count : Nat} {previous : Int} :
    fields item count previous bytes = .ok rest ↔
      ∃ pairs : List (Nat × Value), pairs.length = count ∧
        pairs.Pairwise (fun f g => f.1 < g.1) ∧
        (∀ f ∈ pairs, previous < f.1 ∧ f.1 < 2 ^ 64 ∧ f.1 ≤ maxSafeInteger ∧ P f.2) ∧
        bytes = encodeFields pairs ++ rest := by
  induction count generalizing bytes previous with
  | zero =>
    constructor
    · intro h
      cases h
      exact ⟨[], rfl, .nil, nofun, rfl⟩
    · rintro ⟨pairs, hlength, -, -, rfl⟩
      rw [List.length_eq_zero_iff.mp hlength]
      rfl
  | succ count ih =>
    unfold fields
    constructor
    · intro h
      split at h
      · cases h
      rename_i key rest₁ hkey
      split at h
      · cases h
      rename_i rest₂ hvalue
      obtain ⟨hlt, hsafe, horder, rfl⟩ := fieldKey_ok_iff.mp hkey
      obtain ⟨v, hv, rfl⟩ := (hitem _ _).mp hvalue
      obtain ⟨pairs, hlength, hsorted, hpairs, rfl⟩ := ih.mp h
      refine ⟨(key, v) :: pairs, congrArg Nat.succ hlength, ?_, ?_, ?_⟩
      · refine List.pairwise_cons.mpr ⟨fun f hf => ?_, hsorted⟩
        exact Int.ofNat_lt.mp (hpairs f hf).1
      · refine List.forall_mem_cons.mpr ⟨⟨horder, hlt, hsafe, hv⟩, fun f hf => ?_⟩
        exact ⟨horder.trans (hpairs f hf).1, (hpairs f hf).2⟩
      · rw [encodeFields, List.append_assoc, List.append_assoc]
    · rintro ⟨pairs, hlength, hsorted, hpairs, hbytes⟩
      cases pairs with
      | nil => cases hlength
      | cons f pairs =>
        obtain ⟨key, v⟩ := f
        rw [List.pairwise_cons] at hsorted
        rw [List.forall_mem_cons] at hpairs
        obtain ⟨⟨horder, hlt, hsafe, hv⟩, hpairs⟩ := hpairs
        rw [encodeFields, List.append_assoc, List.append_assoc] at hbytes
        rw [fieldKey_ok_iff.mpr ⟨hlt, hsafe, horder, hbytes⟩]
        dsimp only
        rw [(hitem _ _).mpr ⟨v, hv, rfl⟩]
        refine ih.mpr ⟨pairs, Nat.succ.inj hlength, hsorted.2, fun f hf => ?_, rfl⟩
        exact ⟨Int.ofNat_lt.mpr (hsorted.1 f hf), (hpairs f hf).2⟩

end Loops

theorem content_ok_iff {r major value : Nat} {bytes rest : List UInt8}
    (hitem : Reads (item r) (Valid protocolLimits r)) (hmajor : major < 6)
    (hvalue : value < 2 ^ 64) : content (item r) major value bytes = .ok rest ↔
      ∃ v, Valid protocolLimits (r + 1) v ∧ v.major = major ∧ v.argument = value ∧
        bytes = v.payload ++ rest := by
  unfold content
  constructor
  · intro h
    split at h
    · cases h
      obtain rfl | rfl : major = 0 ∨ major = 1 := by omega
      · exact ⟨.unsigned value, hvalue, rfl, rfl, rfl⟩
      · exact ⟨.negative value, hvalue, rfl, rfl, rfl⟩
    split at h
    · rename_i hstring
      split at h
      · cases h
      have htake : (bytes.take value).length = value := by
        rw [List.length_take]
        omega
      split at h
      · cases h
      rename_i htext
      cases h
      obtain rfl | rfl := hstring
      · refine ⟨.bytes (bytes.take value), ?_, rfl, htake, (List.take_append_drop _ _).symm⟩
        change (bytes.take value).length < 2 ^ 64
        rwa [htake]
      · have hvalid : validText (bytes.take value) = true := by simpa using htext
        obtain ⟨s, hs⟩ := validText_iff.mp hvalid
        have hsize : (utf8 s).length = value := by rw [hs, htake]
        refine ⟨.text s, ?_, rfl, hsize, ?_⟩
        · change (utf8 s).length < 2 ^ 64
          rwa [hsize]
        · change bytes = utf8 s ++ bytes.drop value
          rw [hs, List.take_append_drop]
    split at h
    · rename_i harray
      split at h
      · cases h
      rename_i hcount
      obtain ⟨values, hlength, hvalues, rfl⟩ := (items_ok_iff hitem).mp h
      refine ⟨.array values, ⟨?_, ?_, hvalues⟩, harray.symm, hlength, rfl⟩
      · rwa [hlength]
      · rw [hlength]
        exact Nat.not_lt.mp hcount
    · split at h
      · cases h
      rename_i hcount
      obtain ⟨pairs, hlength, hsorted, hpairs, rfl⟩ := (fields_ok_iff hitem).mp h
      have hmap : major = 5 := by omega
      refine ⟨.map pairs, ⟨?_, ?_, hsorted, fun f hf => (hpairs f hf).2⟩, hmap.symm, hlength, rfl⟩
      · rwa [hlength]
      · rw [hlength]
        exact Nat.not_lt.mp hcount
  · rintro ⟨v, hvalid, rfl, rfl, rfl⟩
    cases v with
    | unsigned | negative => rfl
    | bytes => simp [Value.major, Value.argument, Value.payload]
    | text s =>
      have htext : validText (utf8 s) = true := validText_iff.mpr ⟨s, rfl⟩
      simp [Value.major, Value.argument, Value.payload, htext]
    | array values =>
      change (if values.length > maximumCborArrayItems then _ else
        items (item r) values.length (encodeItems values ++ rest)) = _
      have hcount : ¬ values.length > maximumCborArrayItems := Nat.not_lt.mpr hvalid.2.1
      rw [if_neg hcount]
      exact (items_ok_iff hitem).mpr ⟨values, rfl, hvalid.2.2, rfl⟩
    | map pairs =>
      change (if pairs.length > maximumCborMapFields then _ else
        fields (item r) pairs.length (-1) (encodeFields pairs ++ rest)) = _
      have hcount : ¬ pairs.length > maximumCborMapFields := Nat.not_lt.mpr hvalid.2.1
      rw [if_neg hcount]
      refine (fields_ok_iff hitem).mpr ⟨pairs, rfl, hvalid.2.2.1, fun f hf => ⟨?_, ?_⟩, rfl⟩
      · omega
      · exact hvalid.2.2.2 f hf
    | bool | null => exact absurd hmajor (show ¬ 7 < 6 by decide)

/-- An item is accepted exactly where the encoding of a valid value stands. -/
theorem item_reads (r : Nat) : Reads (item r) (Valid protocolLimits r) := by
  induction r with
  | zero =>
    intro bytes rest
    exact ⟨nofun, fun ⟨v, hv, _⟩ => hv.elim⟩
  | succ r ih =>
    intro bytes rest
    constructor
    · intro h
      cases bytes with
      | nil => cases h
      | cons initial =>
        unfold item at h
        dsimp only at h
        split at h
        · split at h
          · cases h
          rename_i hsimple
          cases h
          by_cases hfalse : initial = 0xf4
          · exact ⟨.bool false, trivial, by rw [hfalse]; rfl⟩
          by_cases htrue : initial = 0xf5
          · exact ⟨.bool true, trivial, by rw [htrue]; rfl⟩
          by_cases hnull : initial = 0xf6
          · exact ⟨.null, trivial, by rw [hnull]; rfl⟩
          exact absurd ⟨hfalse, htrue, hnull⟩ hsimple
        split at h
        · cases h
        split at h
        · cases h
        rename_i value rest' hargument
        have hlt := initial.toNat_lt
        obtain ⟨hvalue, hbytes⟩ := (argument_ok_iff rfl).mp hargument
        obtain ⟨v, hvalid, hmajor, rfl, rfl⟩ :=
          (content_ok_iff ih (by omega) hvalue).mp h
        refine ⟨v, hvalid, ?_⟩
        rw [hbytes, encode_eq_head, hmajor, List.append_assoc]
    · rintro ⟨v, hvalid, rfl⟩
      rw [encode_eq_head, List.append_assoc]
      obtain ⟨b, tail, hhead, hb⟩ := head_eq_cons (major_lt v) hvalid.argument_lt
      by_cases hseven : v.major = 7
      · cases v with
        | bool b => cases b <;> rfl
        | null => rfl
        | _ => cases hseven
      · have hsix : v.major < 6 := by
          cases v <;> simp [Value.major] at hseven ⊢
        have hargument : argument (b.toNat % 32) (tail ++ (v.payload ++ rest)) =
            .ok (v.argument, v.payload ++ rest) :=
          (argument_ok_iff hb).mpr ⟨hvalid.argument_lt, by rw [hhead]; rfl⟩
        rw [hhead, List.cons_append]
        unfold item
        rw [hb, if_neg hseven, if_neg (by omega), hargument]
        exact (content_ok_iff ih hsix hvalid.argument_lt).mpr ⟨v, hvalid, rfl, rfl, rfl⟩

def Allowed (v : Value) : Prop := Valid protocolLimits (maximumCborDepth + 1) v

theorem validateCanonicalEncoding_iff (encoded : List UInt8) :
    validateCanonicalEncoding encoded = .ok () ↔ ∃ v, Allowed v ∧ encode v = encoded := by
  have hreads := item_reads (maximumCborDepth + 1) encoded
  unfold validateCanonicalEncoding
  constructor
  · intro h
    split at h
    · cases h
    rename_i rest hitem
    split at h
    · cases h
    rename_i hrest
    rw [not_not] at hrest
    subst hrest
    obtain ⟨v, hv, hbytes⟩ := (hreads []).mp hitem
    exact ⟨v, hv, by rw [hbytes, List.append_nil]⟩
  · rintro ⟨v, hv, hbytes⟩
    rw [(hreads []).mpr ⟨v, hv, by rw [hbytes, List.append_nil]⟩]
    rfl

theorem encode_inj_iff {v w : Value} (hv : Allowed v) (hw : Allowed w) :
    encode v = encode w ↔ v = w := by
  refine ⟨fun h => ?_, fun h => congrArg encode h⟩
  exact (encode_append_inj (x := []) (y := []) hv hw (by rw [h])).1

/-- The validator accepts exactly the deterministic encodings of the protocol's values. It is
a total function, and accepted strings and values correspond one to one. -/
theorem canonical_encodings :
    (∀ encoded, validateCanonicalEncoding encoded = .ok () ↔
      ∃ v, Allowed v ∧ encode v = encoded) ∧
    (∀ encoded, validateCanonicalEncoding encoded = .ok () → ∃! v, Allowed v ∧ encode v = encoded) ∧
    ∀ v w, Allowed v → Allowed w → (encode v ≠ encode w ↔ v ≠ w) := by
  refine ⟨validateCanonicalEncoding_iff, fun encoded h => ?_,
    fun v w hv hw => not_congr (encode_inj_iff hv hw)⟩
  obtain ⟨v, hv, hbytes⟩ := (validateCanonicalEncoding_iff encoded).mp h
  refine ⟨v, ⟨hv, hbytes⟩, fun w hw => ?_⟩
  exact (encode_inj_iff hw.1 hv).mp (hw.2.trans hbytes.symm)

/-- A map from zero to the array of null and the text `a`. -/
theorem canonical_encodings_map : ∃! v, Allowed v ∧ encode v = [0xa1, 0, 0x82, 0xf6, 0x61, 0x61] :=
  canonical_encodings.2.1 _ (by decide +kernel)

/-- A value at the start of a string is read off the bytes, whatever follows it. -/
theorem accepted_append_inj {a b x y : List UInt8} (ha : validateCanonicalEncoding a = .ok ())
    (hb : validateCanonicalEncoding b = .ok ()) (h : a ++ x = b ++ y) : a = b ∧ x = y := by
  obtain ⟨v, hv, rfl⟩ := (validateCanonicalEncoding_iff a).mp ha
  obtain ⟨w, hw, rfl⟩ := (validateCanonicalEncoding_iff b).mp hb
  obtain ⟨rfl, hrest⟩ := encode_append_inj hv hw h
  exact ⟨rfl, hrest⟩

theorem accepted_ne_nil {a : List UInt8} (ha : validateCanonicalEncoding a = .ok ()) : a ≠ [] := by
  obtain ⟨v, hv, rfl⟩ := (validateCanonicalEncoding_iff a).mp ha
  exact hv.encode_ne_nil

theorem flatten_accepted_inj {messages others : List (List UInt8)}
    (hmessages : ∀ message ∈ messages, validateCanonicalEncoding message = .ok ())
    (hothers : ∀ other ∈ others, validateCanonicalEncoding other = .ok ())
    (h : messages.flatten = others.flatten) : messages = others := by
  induction messages generalizing others with
  | nil =>
    cases others with
    | nil => rfl
    | cons other others =>
      exact absurd (List.append_eq_nil_iff.mp h.symm).1
        (accepted_ne_nil (hothers other List.mem_cons_self))
  | cons message messages ih =>
    cases others with
    | nil =>
      exact absurd (List.append_eq_nil_iff.mp h).1
        (accepted_ne_nil (hmessages message List.mem_cons_self))
    | cons other others =>
      obtain ⟨rfl, hrest⟩ := accepted_append_inj (hmessages message List.mem_cons_self)
        (hothers other List.mem_cons_self) h
      rw [ih (fun m hm => hmessages m (List.mem_cons_of_mem _ hm))
        (fun m hm => hothers m (List.mem_cons_of_mem _ hm)) hrest]

/-- Accepted encodings delimit themselves. No bytes can be cut off an accepted encoding or
added to it, and accepted encodings written one after the other split in one way. -/
theorem accepted_encodings_delimited :
    (∀ encoded rest, validateCanonicalEncoding encoded = .ok () →
      (validateCanonicalEncoding (encoded ++ rest) = .ok () ↔ rest = [])) ∧
    Set.InjOn List.flatten
      {messages | ∀ message ∈ messages, validateCanonicalEncoding message = .ok ()} := by
  refine ⟨fun encoded rest hencoded => ⟨fun hlonger => ?_, ?_⟩, ?_⟩
  · exact (accepted_append_inj hencoded hlonger (y := []) (by simp)).2
  · rintro rfl
    rwa [List.append_nil]
  · intro messages hmessages others hothers hsame
    exact flatten_accepted_inj hmessages hothers hsame

theorem accepted_encodings_delimited_null :
    validateCanonicalEncoding [0xf6] = .ok () ∧ validateCanonicalEncoding [0xf6, 0xf6] ≠ .ok () :=
  ⟨by decide +kernel, (not_congr
    (accepted_encodings_delimited.1 [0xf6] [0xf6] (by decide +kernel))).mpr (by decide)⟩

end Windshare.Protocol
