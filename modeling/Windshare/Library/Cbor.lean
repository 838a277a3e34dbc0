import Mathlib.Data.List.Sort
import Windshare.Library.Bytes

/-!
# Deterministic CBOR

The values of a CBOR subset with unsigned integer map keys and their deterministic encoding:
every argument in its shortest form, every length definite. What a protocol allows beyond that
is a set of limits. An encoding determines its value and where it ends, so encodings can be
concatenated.
-/

namespace Windshare.Library.Cbor

inductive Value where
  | unsigned (n : Nat)
  | negative (n : Nat)
  | bytes (content : List UInt8)
  | text (content : String)
  | array (items : List Value)
  | map (fields : List (Nat × Value))
  | bool (b : Bool)
  | null

/-- The initial byte of a major type and the shortest form of its argument. -/
def head (major n : Nat) : List UInt8 :=
  if n < 24 then [UInt8.ofNat (32 * major + n)]
  else if n < 256 then UInt8.ofNat (32 * major + 24) :: bigEndian 1 n
  else if n < 65536 then UInt8.ofNat (32 * major + 25) :: bigEndian 2 n
  else if n < 4294967296 then UInt8.ofNat (32 * major + 26) :: bigEndian 4 n
  else UInt8.ofNat (32 * major + 27) :: bigEndian 8 n

def utf8 (s : String) : List UInt8 := s.toByteArray.data.toList

mutual

def encode : Value → List UInt8
  | .unsigned n => head 0 n
  | .negative n => head 1 n
  | .bytes content => head 2 content.length ++ content
  | .text content => head 3 (utf8 content).length ++ utf8 content
  | .array items => head 4 items.length ++ encodeItems items
  | .map fields => head 5 fields.length ++ encodeFields fields
  | .bool false => [0xf4]
  | .bool true => [0xf5]
  | .null => [0xf6]
termination_by structural v => v

def encodeItems : List Value → List UInt8
  | [] => []
  | v :: items => encode v ++ encodeItems items
termination_by structural items => items

def encodeFields : List (Nat × Value) → List UInt8
  | [] => []
  | (key, v) :: fields => head 0 key ++ (encode v ++ encodeFields fields)
termination_by structural fields => fields

end

/-- What a protocol allows. -/
structure Limits where
  arrayItems : Nat
  mapFields : Nat
  key : Nat

/-- The value is nested less than `r` deep and within the limits. Its arguments fit 64 bits and
its map keys ascend. -/
def Valid (limits : Limits) : Nat → Value → Prop
  | 0, _ => False
  | _ + 1, .unsigned n => n < 2 ^ 64
  | _ + 1, .negative n => n < 2 ^ 64
  | _ + 1, .bytes content => content.length < 2 ^ 64
  | _ + 1, .text content => (utf8 content).length < 2 ^ 64
  | r + 1, .array items =>
    items.length < 2 ^ 64 ∧ items.length ≤ limits.arrayItems ∧ ∀ v ∈ items, Valid limits r v
  | r + 1, .map fields =>
    fields.length < 2 ^ 64 ∧ fields.length ≤ limits.mapFields ∧
      fields.Pairwise (fun f g => f.1 < g.1) ∧
      ∀ f ∈ fields, f.1 < 2 ^ 64 ∧ f.1 ≤ limits.key ∧ Valid limits r f.2
  | _ + 1, .bool _ => True
  | _ + 1, .null => True

/-! ### Arguments -/

/-- The widths of the long forms and the least argument that needs each. -/
def longForm : Nat → Option (Nat × Nat)
  | 24 => some (1, 24)
  | 25 => some (2, 256)
  | 26 => some (4, 65536)
  | 27 => some (8, 4294967296)
  | _ => none

/-- Read the argument behind an initial byte with the given additional information. -/
def readArgument (additional : Nat) (bytes : List UInt8) : Option (Nat × List UInt8) :=
  if additional < 24 then some (additional, bytes)
  else
    match longForm additional with
    | none => none
    | some (width, least) =>
      if bytes.length < width ∨ ofBigEndian (bytes.take width) < least then none
      else some (ofBigEndian (bytes.take width), bytes.drop width)

variable {additional width least : Nat} {P : Value → Prop}

section Arguments

variable {major n : Nat} {b : UInt8} {bytes rest : List UInt8}

theorem head_long (hform : longForm additional = some (width, least))
    (hleast : least ≤ n) (hn : n < 256 ^ width) :
    head major n = UInt8.ofNat (32 * major + additional) :: bigEndian width n := by
  unfold longForm at hform
  unfold head
  split at hform
  all_goals cases hform
  · rw [if_neg (by omega), if_pos (by omega)]
  · rw [if_neg (by omega), if_neg (by omega), if_pos (by omega)]
  · rw [if_neg (by omega), if_neg (by omega), if_neg (by omega), if_pos (by omega)]
  · rw [if_neg (by omega), if_neg (by omega), if_neg (by omega), if_neg (by omega)]

/-- Every argument has one form: inline, or the shortest long one. -/
theorem head_cases (major : Nat) (hn : n < 2 ^ 64) :
    (n < 24 ∧ head major n = [UInt8.ofNat (32 * major + n)]) ∨
    ∃ additional width least, longForm additional = some (width, least) ∧ least ≤ n ∧
      n < 256 ^ width ∧ 24 ≤ additional ∧ additional < 28 ∧
      head major n = UInt8.ofNat (32 * major + additional) :: bigEndian width n := by
  have hlong : ∀ (additional : Nat) {width least : Nat}, longForm additional = some (width, least) →
      24 ≤ additional → additional < 28 → least ≤ n → n < 256 ^ width →
      ∃ additional width least, longForm additional = some (width, least) ∧ least ≤ n ∧
        n < 256 ^ width ∧ 24 ≤ additional ∧ additional < 28 ∧
        head major n = UInt8.ofNat (32 * major + additional) :: bigEndian width n :=
    fun _ _ _ hform hge hlt hleast hwidth =>
      ⟨_, _, _, hform, hleast, hwidth, hge, hlt, head_long hform hleast hwidth⟩
  by_cases h24 : n < 24
  · exact .inl ⟨h24, if_pos h24⟩
  refine .inr ?_
  by_cases h256 : n < 256
  · exact hlong 24 rfl (by omega) (by omega) (by omega) (by omega)
  by_cases h65536 : n < 65536
  · exact hlong 25 rfl (by omega) (by omega) (by omega) (by omega)
  by_cases h32 : n < 4294967296
  · exact hlong 26 rfl (by omega) (by omega) (by omega) (by omega)
  · exact hlong 27 rfl (by omega) (by omega) (by omega) (by omega)

theorem longForm_bounds
    (h : longForm additional = some (width, least)) : 24 ≤ additional ∧ additional < 28 ∧
      256 ^ width ≤ 2 ^ 64 := by
  unfold longForm at h
  split at h
  all_goals cases h
  all_goals decide

/-- An argument is read exactly where its shortest form stands. -/
theorem readArgument_iff (hb : b.toNat / 32 = major) :
    readArgument (b.toNat % 32) bytes = some (n, rest) ↔
      n < 2 ^ 64 ∧ b :: bytes = head major n ++ rest := by
  have hbyte : b = UInt8.ofNat (32 * major + b.toNat % 32) := by
    apply UInt8.toNat_inj.mp
    have hlt := b.toNat_lt
    rw [UInt8.toNat_ofNat']
    omega
  unfold readArgument
  constructor
  · intro h
    split at h
    · rename_i hinline
      cases h
      refine ⟨by omega, ?_⟩
      unfold head
      rw [if_pos hinline, ← hbyte]
      rfl
    · split at h
      · cases h
      rename_i width least hform
      split at h
      · cases h
      rename_i hread
      rw [not_or] at hread
      cases h
      have hwidth : (bytes.take width).length = width := by
        rw [List.length_take]
        omega
      have hlt := ofBigEndian_lt (bytes.take width)
      rw [hwidth] at hlt
      refine ⟨hlt.trans_le (longForm_bounds hform).2.2, ?_⟩
      have hwritten := bigEndian_ofBigEndian (bytes.take width)
      rw [hwidth] at hwritten
      rw [head_long hform (Nat.not_lt.mp hread.2) hlt, ← hbyte, hwritten, List.cons_append,
        List.take_append_drop]
  · rintro ⟨hn, hbytes⟩
    obtain ⟨hinline, hhead⟩ | ⟨additional, width, least, hform, hleast, hwidth, hge, hlt, hhead⟩ :=
      head_cases major hn
    · rw [hhead, List.singleton_append] at hbytes
      obtain ⟨hfirst, rfl⟩ := List.cons.inj hbytes
      have hadditional : b.toNat % 32 = n := by
        rw [hfirst, UInt8.toNat_ofNat']
        have hblt := b.toNat_lt
        omega
      rw [hadditional, if_pos hinline]
    · rw [hhead, List.cons_append] at hbytes
      obtain ⟨hfirst, rfl⟩ := List.cons.inj hbytes
      have hadditional : b.toNat % 32 = additional := by
        rw [hfirst, UInt8.toNat_ofNat']
        have hblt := b.toNat_lt
        omega
      have hlength : (bigEndian width n).length = width := length_bigEndian width n
      rw [hadditional, if_neg (Nat.not_lt.mpr hge), hform]
      dsimp only
      rw [List.take_left' hlength, List.drop_left' hlength, ofBigEndian_bigEndian hwidth, if_neg]
      rintro (hshort | hsmall)
      · rw [List.length_append, hlength] at hshort
        omega
      · omega

/-- The initial byte holds the major type. -/
theorem head_eq_cons (hmajor : major < 8) (hn : n < 2 ^ 64) :
    ∃ b bytes, head major n = b :: bytes ∧ b.toNat / 32 = major := by
  obtain ⟨hinline, hhead⟩ | ⟨additional, width, _, _, _, _, _, _, hhead⟩ := head_cases major hn
  · refine ⟨_, [], hhead, ?_⟩
    rw [UInt8.toNat_ofNat']
    omega
  · refine ⟨_, _, hhead, ?_⟩
    rw [UInt8.toNat_ofNat']
    omega

theorem head_append_inj {major' n' : Nat} {x y : List UInt8} (hmajor : major < 8)
    (hmajor' : major' < 8) (hn : n < 2 ^ 64) (hn' : n' < 2 ^ 64)
    (h : head major n ++ x = head major' n' ++ y) : major = major' ∧ n = n' ∧ x = y := by
  obtain ⟨b, bytes, hhead, hb⟩ := head_eq_cons hmajor hn
  obtain ⟨b', bytes', hhead', hb'⟩ := head_eq_cons hmajor' hn'
  have hcons : b = b' ∧ bytes ++ x = bytes' ++ y := by
    rw [hhead, hhead'] at h
    exact List.cons.inj h
  obtain ⟨rfl, htail⟩ := hcons
  have hread : readArgument (b.toNat % 32) (bytes ++ x) = some (n, x) :=
    (readArgument_iff hb).mpr ⟨hn, by rw [hhead]; rfl⟩
  have hread' : readArgument (b.toNat % 32) (bytes ++ x) = some (n', y) :=
    (readArgument_iff hb').mpr ⟨hn', by rw [hhead', htail]; rfl⟩
  rw [hread] at hread'
  cases hread'
  exact ⟨hb.symm.trans hb', rfl, rfl⟩

end Arguments

/-! ### Encodings determine values -/

namespace Value

def major : Value → Nat
  | .unsigned _ => 0
  | .negative _ => 1
  | .bytes _ => 2
  | .text _ => 3
  | .array _ => 4
  | .map _ => 5
  | .bool _ => 7
  | .null => 7

def argument : Value → Nat
  | .unsigned n => n
  | .negative n => n
  | .bytes content => content.length
  | .text content => (utf8 content).length
  | .array items => items.length
  | .map fields => fields.length
  | .bool false => 20
  | .bool true => 21
  | .null => 22

def payload : Value → List UInt8
  | .bytes content => content
  | .text content => utf8 content
  | .array items => encodeItems items
  | .map fields => encodeFields fields
  | _ => []

end Value

variable {limits : Limits} {r : Nat} {v w : Value} {x y : List UInt8}

theorem encode_eq_head (v : Value) : encode v = head v.major v.argument ++ v.payload := by
  cases v with
  | unsigned | negative => exact (List.append_nil _).symm
  | bytes | text | array | map | null => rfl
  | bool b => cases b <;> rfl

theorem major_lt (v : Value) : v.major < 8 := by
  cases v <;> simp [Value.major]

theorem Valid.argument_lt (h : Valid limits r v) : v.argument < 2 ^ 64 := by
  cases r with
  | zero => exact h.elim
  | succ =>
    cases v with
    | unsigned | negative | bytes | text => exact h
    | array | map => exact h.1
    | bool b => cases b <;> decide
    | null => decide

theorem Valid.encode_ne_nil (h : Valid limits r v) : encode v ≠ [] := by
  obtain ⟨b, bytes, hhead, -⟩ := head_eq_cons (major_lt v) h.argument_lt
  rw [encode_eq_head, hhead]
  exact List.cons_ne_nil _ _

theorem utf8_inj {s t : String} (h : utf8 s = utf8 t) : s = t := by
  apply String.toByteArray_inj.mp
  exact ByteArray.ext (Array.toList_inj.mp h)

section

variable (hP : ∀ v w x y, P v → P w → encode v ++ x = encode w ++ y → v = w ∧ x = y)

include hP

theorem encodeItems_append_inj
    {items items' : List Value} (hlength : items.length = items'.length)
    (hitems : ∀ v ∈ items, P v) (hitems' : ∀ v ∈ items', P v)
    (h : encodeItems items ++ x = encodeItems items' ++ y) : items = items' ∧ x = y := by
  induction items generalizing items' with
  | nil =>
    cases items' with
    | nil => exact ⟨rfl, h⟩
    | cons => cases hlength
  | cons v items ih =>
    cases items' with
    | nil => cases hlength
    | cons w =>
      rw [List.forall_mem_cons] at hitems hitems'
      unfold encodeItems at h
      rw [List.append_assoc, List.append_assoc] at h
      obtain ⟨rfl, hrest⟩ := hP v w _ _ hitems.1 hitems'.1 h
      obtain ⟨rfl, rfl⟩ := ih (Nat.succ.inj hlength) hitems.2 hitems'.2 hrest
      exact ⟨rfl, rfl⟩

theorem encodeFields_append_inj
    {fields fields' : List (Nat × Value)} (hlength : fields.length = fields'.length)
    (hfields : ∀ f ∈ fields, f.1 < 2 ^ 64 ∧ P f.2) (hfields' : ∀ f ∈ fields', f.1 < 2 ^ 64 ∧ P f.2)
    (h : encodeFields fields ++ x = encodeFields fields' ++ y) : fields = fields' ∧ x = y := by
  induction fields generalizing fields' with
  | nil =>
    cases fields' with
    | nil => exact ⟨rfl, h⟩
    | cons => cases hlength
  | cons f fields ih =>
    cases fields' with
    | nil => cases hlength
    | cons g =>
      obtain ⟨key, v⟩ := f
      obtain ⟨key', w⟩ := g
      rw [List.forall_mem_cons] at hfields hfields'
      unfold encodeFields at h
      rw [List.append_assoc, List.append_assoc, List.append_assoc, List.append_assoc] at h
      obtain ⟨-, rfl, hvalue⟩ :=
        head_append_inj (by decide) (by decide) hfields.1.1 hfields'.1.1 h
      obtain ⟨rfl, hrest⟩ := hP v w _ _ hfields.1.2 hfields'.1.2 hvalue
      obtain ⟨rfl, rfl⟩ := ih (Nat.succ.inj hlength) hfields.2 hfields'.2 hrest
      exact ⟨rfl, rfl⟩

end

/-- Two valid values with equal encodings in front of anything are equal. -/
theorem encode_append_inj (hv : Valid limits r v) (hw : Valid limits r w)
    (h : encode v ++ x = encode w ++ y) : v = w ∧ x = y := by
  induction r generalizing v w x y with
  | zero => exact hv.elim
  | succ r ih =>
    have hP : ∀ v w x y, Valid limits r v → Valid limits r w →
        encode v ++ x = encode w ++ y → v = w ∧ x = y := fun _ _ _ _ hv hw h => ih hv hw h
    rw [encode_eq_head v, encode_eq_head w, List.append_assoc, List.append_assoc] at h
    obtain ⟨hmajor, hargument, hpayload⟩ :=
      head_append_inj (major_lt v) (major_lt w) hv.argument_lt hw.argument_lt h
    cases v with
    | unsigned =>
      cases w with
      | unsigned =>
        cases hargument
        exact ⟨rfl, hpayload⟩
      | _ => cases hmajor
    | negative =>
      cases w with
      | negative =>
        cases hargument
        exact ⟨rfl, hpayload⟩
      | _ => cases hmajor
    | bytes =>
      cases w with
      | bytes =>
        obtain ⟨rfl, rfl⟩ := List.append_inj hpayload hargument
        exact ⟨rfl, rfl⟩
      | _ => cases hmajor
    | text =>
      cases w with
      | text =>
        obtain ⟨hcontent, rfl⟩ := List.append_inj hpayload hargument
        exact ⟨congrArg Value.text (utf8_inj hcontent), rfl⟩
      | _ => cases hmajor
    | array =>
      cases w with
      | array =>
        obtain ⟨rfl, rfl⟩ := encodeItems_append_inj hP hargument hv.2.2 hw.2.2 hpayload
        exact ⟨rfl, rfl⟩
      | _ => cases hmajor
    | map =>
      cases w with
      | map =>
        obtain ⟨rfl, rfl⟩ := encodeFields_append_inj hP hargument
          (fun f hf => ⟨(hv.2.2.2 f hf).1, (hv.2.2.2 f hf).2.2⟩)
          (fun f hf => ⟨(hw.2.2.2 f hf).1, (hw.2.2.2 f hf).2.2⟩) hpayload
        exact ⟨rfl, rfl⟩
      | _ => cases hmajor
    | bool b =>
      cases w with
      | bool b' =>
        cases b <;> cases b' <;> first | exact ⟨rfl, hpayload⟩ | cases hargument
      | null => cases b <;> cases hargument
      | _ => cases hmajor
    | null =>
      cases w with
      | bool b' => cases b' <;> cases hargument
      | null => exact ⟨rfl, hpayload⟩
      | _ => cases hmajor

open Classical in
/-- The decoder of the valid values: the inverse of the encoding. -/
noncomputable def decode (limits : Limits) (r : Nat) (bytes : List UInt8) : Option Value :=
  if h : ∃ v, Valid limits r v ∧ encode v = bytes then some h.choose else none

theorem decode_encode (hv : Valid limits r v) : decode limits r (encode v) = some v := by
  have h : ∃ w, Valid limits r w ∧ encode w = encode v := ⟨v, hv, rfl⟩
  have hinj := encode_append_inj (x := []) (y := []) h.choose_spec.1 hv (by rw [h.choose_spec.2])
  unfold decode
  rw [dif_pos h, hinj.1]

/-! ### Keys -/

end Windshare.Library.Cbor
