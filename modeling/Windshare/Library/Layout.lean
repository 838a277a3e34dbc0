import Windshare.Library.Bytes
import Windshare.Library.Fallible

/-!
# Exact byte layouts

A layout is read field by field from the front of a byte string. A reader reads a writer when it
accepts exactly what the writer writes for valid values, and then returns the value and leaves
the rest. Such readers compose: what a longer layout accepts is one to one with its valid values,
so decoding is never ambiguous and encoding never loses anything.
-/

namespace Windshare.Library

abbrev LayoutReader (ε : Type) := StateT (List UInt8) (Except ε)

namespace Layout

variable {ε ε' α β : Type}

def field (n : Nat) (short : ε) : LayoutReader ε (List UInt8) := fun bytes =>
  if n ≤ bytes.length then .ok (bytes.take n, bytes.drop n) else .error short

/-- The next byte. -/
def byte (short : ε) : LayoutReader ε UInt8 := fun bytes =>
  match bytes with
  | [] => .error short
  | b :: rest => .ok (b, rest)

/-- A number of `n` bytes, most significant first. -/
def number (n : Nat) (short : ε) : LayoutReader ε Nat := do
  let bytes ← field n short
  return ofBigEndian bytes

def convert (r : LayoutReader ε α) (f : α → Option β) (e : ε) : LayoutReader ε β := do
  let a ← r
  match f a with
  | none => throw e
  | some b => return b

/-- Fail where the condition holds. -/
def refuse (c : Prop) [Decidable c] (e : ε) : LayoutReader ε Unit :=
  if c then throw e else pure ()

/-- Fail where the condition holds of how many bytes are not yet read. -/
def refuseAhead (c : Nat → Prop) [DecidablePred c] (e : ε) : LayoutReader ε Unit := fun bytes =>
  if c bytes.length then .error e else .ok ((), bytes)

/-- A given number of elements; each is read knowing what came before it. -/
def counted {σ : Type} (r : σ → LayoutReader ε α) (next : α → σ) :
    σ → Nat → LayoutReader ε (List α)
  | _, 0 => pure []
  | s, n + 1 => do
      let a ← r s
      let rest ← counted r next (next a) n
      return a :: rest

/-- Each element is valid after the ones before it. -/
def Linked {σ : Type} (valid : σ → α → Prop) (next : α → σ) : σ → List α → Prop
  | _, [] => True
  | s, a :: rest => valid s a ∧ Linked valid next (next a) rest

/-- Read a whole byte string. -/
def decode (r : LayoutReader ε α) (trailing : ε) (bytes : List UInt8) : Except ε α :=
  match r bytes with
  | .error e => .error e
  | .ok (a, []) => .ok a
  | .ok (_, _ :: _) => .error trailing

/-- `r` accepts the writings of the valid values, and nothing else. -/
def Reads (r : LayoutReader ε α) (valid : α → Prop) (write : α → List UInt8) : Prop :=
  ∀ bytes a rest, r bytes = .ok (a, rest) ↔ valid a ∧ bytes = write a ++ rest

/-- Decoding and encoding are inverse bijections between the valid values and the accepted
byte strings. -/
structure ExactCodec (decode : List UInt8 → Except ε α) (valid : α → Prop)
    (encode : α → List UInt8) : Prop where
  decode_encode : ∀ a, valid a → decode (encode a) = .ok a
  encode_decode : ∀ bytes a, decode bytes = .ok a → encode a = bytes
  decode_valid : ∀ bytes a, decode bytes = .ok a → valid a
  rejected : ∀ bytes, (∀ a, valid a → encode a ≠ bytes) → ∃ e, decode bytes = .error e

/-! ### Whole strings -/

variable {r : LayoutReader ε α} {valid : α → Prop} {write : α → List UInt8} {e : ε}
  {validA : α → Prop} {writeA : α → List UInt8} {bytes : List UInt8}

theorem exactCodec_of_iff {decode : List UInt8 → Except ε α} {encode : α → List UInt8}
    (h : ∀ bytes a, decode bytes = .ok a ↔ valid a ∧ encode a = bytes) :
    ExactCodec decode valid encode where
  decode_encode := fun a ha => (h _ a).mpr ⟨ha, rfl⟩
  encode_decode := fun bytes a hdecode => ((h bytes a).mp hdecode).2
  decode_valid := fun bytes a hdecode => ((h bytes a).mp hdecode).1
  rejected := by
    intro bytes hother
    cases hdecode : decode bytes with
    | error e => exact ⟨e, rfl⟩
    | ok a =>
      obtain ⟨ha, hbytes⟩ := (h bytes a).mp hdecode
      exact absurd hbytes (hother a ha)

theorem Reads.decode_eq_ok (h : Reads r valid write) {trailing : ε} {a : α} :
    decode r trailing bytes = .ok a ↔ valid a ∧ write a = bytes := by
  have hread := h bytes a []
  rw [List.append_nil] at hread
  rw [eq_comm (a := write a), ← hread]
  unfold decode
  cases hr : r bytes with
  | error => exact ⟨nofun, nofun⟩
  | ok result =>
    obtain ⟨a', rest⟩ := result
    cases rest with
    | nil =>
      constructor
      · rintro ⟨⟩
        rfl
      · rintro ⟨⟩
        rfl
    | cons => exact ⟨nofun, nofun⟩

/-- Only one valid value is written so. -/
theorem Reads.write_inj
    (h : Reads r valid write) {a b : α} (ha : valid a) (hb : valid b) (heq : write a = write b) :
    a = b := by
  have hread := (h (write a) a []).mpr ⟨ha, (List.append_nil _).symm⟩
  have hread' := (h (write a) b []).mpr ⟨hb, by rw [heq, List.append_nil]⟩
  rw [hread] at hread'
  exact congrArg Prod.fst (Except.ok.inj hread')

/-! ### Composition -/

theorem bind_apply_eq_ok {f : α → LayoutReader ε β}
    {b : β} {rest : List UInt8} : (r >>= f) bytes = .ok (b, rest) ↔
      ∃ a mid, r bytes = .ok (a, mid) ∧ f a mid = .ok (b, rest) := by
  change (r bytes >>= fun result => f result.1 result.2) = _ ↔ _
  rw [bind_eq_ok]
  exact ⟨fun ⟨⟨a, mid⟩, hr, hf⟩ => ⟨a, mid, hr, hf⟩, fun ⟨a, mid, hr, hf⟩ => ⟨(a, mid), hr, hf⟩⟩

/-- A field that the whole value determines, and then the other fields. What the fields read so
far say of the value is `known`. -/
theorem Reads.bind {f : α → LayoutReader ε β}
    {known valid : β → Prop} {fields : β → List (List UInt8)}
    (part : β → α) (hr : Reads r validA writeA)
    (hvalid : ∀ b, known b → valid b → validA (part b))
    (hf : ∀ a, validA a →
      Reads (f a) (fun b => (part b = a ∧ known b) ∧ valid b) (fun b => (fields b).flatten)) :
    Reads (r >>= f) (fun b => known b ∧ valid b)
      (fun b => (writeA (part b) :: fields b).flatten) := by
  intro bytes b rest
  change _ ↔ (known b ∧ valid b) ∧ bytes = (writeA (part b) ++ (fields b).flatten) ++ rest
  rw [bind_apply_eq_ok, List.append_assoc]
  constructor
  · rintro ⟨a, mid, hread, hnext⟩
    obtain ⟨ha, rfl⟩ := (hr _ _ _).mp hread
    obtain ⟨⟨⟨rfl, hknown⟩, hb⟩, rfl⟩ := (hf a ha _ _ _).mp hnext
    exact ⟨⟨hknown, hb⟩, rfl⟩
  · rintro ⟨⟨hknown, hb⟩, rfl⟩
    have ha := hvalid b hknown hb
    exact ⟨part b, (fields b).flatten ++ rest, (hr _ _ _).mpr ⟨ha, rfl⟩,
      (hf _ ha _ _ _).mpr ⟨⟨⟨rfl, hknown⟩, hb⟩, rfl⟩⟩

theorem Reads.congr {valid valid' : α → Prop}
    {write write' : α → List UInt8} (h : Reads r valid write) (hvalid : ∀ a, valid' a ↔ valid a)
    (hwrite : ∀ a, valid a → write' a = write a) : Reads r valid' write' := by
  intro bytes a rest
  rw [h bytes a rest, hvalid]
  exact and_congr_right fun ha => by rw [hwrite a ha]

/-- Before the first field nothing is known. -/
theorem Reads.of_nothing (h : Reads r (fun a => True ∧ valid a) write) : Reads r valid write :=
  h.congr (fun a => iff_of_eq (true_and (valid a)).symm) (fun _ _ => rfl)

/-- After the last field the value is known. -/
theorem reads_pure {a : α} (hwrite : write a = [])
    (hvalid : ∀ b, valid b ↔ b = a) : Reads (pure a : LayoutReader ε α) valid write := by
  intro bytes b rest
  rw [hvalid]
  constructor
  · rintro ⟨⟩
    exact ⟨rfl, by rw [hwrite]; rfl⟩
  · rintro ⟨rfl, rfl⟩
    rw [hwrite]
    rfl

theorem reads_bind_throw {valid : β → Prop}
    {write : β → List UInt8} (hvalid : ∀ b, ¬ valid b) :
    Reads (r >>= fun _ => throw e) valid write := by
  intro bytes b rest
  refine ⟨fun hread => ?_, fun h => absurd h.1 (hvalid b)⟩
  obtain ⟨_, _, _, ⟨⟩⟩ := bind_apply_eq_ok.mp hread

theorem reads_throw (hvalid : ∀ a, ¬ valid a) : Reads (throw e : LayoutReader ε α) valid write :=
  fun _ a _ => ⟨nofun, fun h => absurd h.1 (hvalid a)⟩

/-- A leading byte that says which layout follows. -/
theorem Reads.tagged {f : UInt8 → LayoutReader ε α} {short : ε} {tag : α → UInt8}
    {body : α → List UInt8}
    (h : ∀ k, Reads (f k) (fun a => tag a = k ∧ valid a) body) :
    Reads (byte short >>= f) valid (fun a => tag a :: body a) := by
  intro bytes a rest
  rw [bind_apply_eq_ok]
  cases bytes with
  | nil => exact ⟨nofun, nofun⟩
  | cons k =>
    constructor
    · rintro ⟨_, _, ⟨⟩, hread⟩
      obtain ⟨⟨rfl, ha⟩, rfl⟩ := (h k _ _ _).mp hread
      exact ⟨ha, rfl⟩
    · rintro ⟨ha, ⟨⟩⟩
      exact ⟨_, _, rfl, (h _ _ _ _).mpr ⟨⟨rfl, ha⟩, rfl⟩⟩

/-- A layout that an earlier field chooses. -/
theorem Reads.ite {r r' : LayoutReader ε α}
    {c : Prop} [Decidable c] (h : c → Reads r valid write) (h' : ¬ c → Reads r' valid write) :
    Reads (if c then r else r') valid write := by
  by_cases hc : c
  · rw [if_pos hc]
    exact h hc
  · rw [if_neg hc]
    exact h' hc

/-- A check that reads nothing and that every valid value passes. -/
theorem Reads.refused {c : Prop} [Decidable c] (hvalid : ∀ a, valid a → ¬ c)
    (h : ¬ c → Reads r valid write) : Reads (refuse c e >>= fun _ => r) valid write := by
  intro bytes a rest
  unfold refuse
  by_cases hc : c
  · rw [if_pos hc]
    exact ⟨nofun, fun ha => absurd hc (hvalid a ha.1)⟩
  · rw [if_neg hc]
    exact h hc bytes a rest

theorem Reads.refusedAhead {c : Nat → Prop} [DecidablePred c]
    (hvalid : ∀ a, valid a → ∀ n, ¬ c ((write a).length + n)) (h : Reads r valid write) :
    Reads (refuseAhead c e >>= fun _ => r) valid write := by
  intro bytes a rest
  rw [bind_apply_eq_ok, ← h bytes a rest]
  unfold refuseAhead
  constructor
  · rintro ⟨u, mid, hahead, hread⟩
    by_cases hc : c bytes.length
    · rw [if_pos hc] at hahead
      cases hahead
    · rw [if_neg hc] at hahead
      cases hahead
      exact hread
  · intro hread
    obtain ⟨ha, rfl⟩ := (h _ _ _).mp hread
    refine ⟨(), _, if_neg ?_, hread⟩
    rw [List.length_append]
    exact hvalid a ha rest.length

/-- A conversion of what was read: each valid value comes from one valid reading. -/
theorem Reads.convert {f : α → Option β} {valid : β → Prop} {write : β → List UInt8}
    (h : Reads r validA writeA) (hvalid : ∀ b, valid b ↔ ∃ a, validA a ∧ f a = some b)
    (hwrite : ∀ a b, validA a → f a = some b → write b = writeA a) :
    Reads (Layout.convert r f e) valid write := by
  intro bytes b rest
  unfold Layout.convert
  rw [bind_apply_eq_ok, hvalid]
  constructor
  · rintro ⟨a, mid, hread, hconvert⟩
    obtain ⟨ha, rfl⟩ := (h _ _ _).mp hread
    cases hf : f a with
    | none =>
      rw [hf] at hconvert
      cases hconvert
    | some b' =>
      rw [hf] at hconvert
      obtain ⟨rfl, rfl⟩ : b' = b ∧ mid = rest := by
        cases hconvert
        exact ⟨rfl, rfl⟩
      exact ⟨⟨a, ha, hf⟩, by rw [hwrite a b' ha hf]⟩
  · rintro ⟨⟨a, ha, hf⟩, rfl⟩
    refine ⟨a, rest, (h _ _ _).mpr ⟨ha, by rw [hwrite a b ha hf]⟩, ?_⟩
    rw [hf]
    rfl

/-- A layout that is one constructor of a larger type. -/
theorem Reads.map {f : α → β} {valid : β → Prop} {write : β → List UInt8}
    (h : Reads r validA writeA) (hvalid : ∀ b, valid b ↔ ∃ a, validA a ∧ f a = b)
    (hwrite : ∀ a, write (f a) = writeA a) :
    Reads (r >>= fun a => pure (f a)) valid write := by
  intro bytes b rest
  rw [bind_apply_eq_ok, hvalid]
  constructor
  · rintro ⟨a, mid, hread, ⟨⟩⟩
    obtain ⟨ha, rfl⟩ := (h _ _ _).mp hread
    exact ⟨⟨a, ha, rfl⟩, by rw [hwrite]⟩
  · rintro ⟨⟨a, ha, rfl⟩, rfl⟩
    exact ⟨a, rest, (h _ _ _).mpr ⟨ha, by rw [hwrite]⟩, rfl⟩

/-- The same for a constructor of two fields. -/
theorem Reads.map₂ {γ : Type} {r' : LayoutReader ε β} {f : α → β → γ}
    {validB : β → Prop} {writeB : β → List UInt8}
    {valid : γ → Prop} {write : γ → List UInt8} (h : Reads r validA writeA)
    (h' : Reads r' validB writeB)
    (hvalid : ∀ c, valid c ↔ ∃ a b, (validA a ∧ validB b) ∧ f a b = c)
    (hwrite : ∀ a b, write (f a b) = writeA a ++ writeB b) :
    Reads (r >>= fun a => r' >>= fun b => pure (f a b)) valid write := by
  intro bytes c rest
  rw [bind_apply_eq_ok, hvalid]
  constructor
  · rintro ⟨a, mid, hread, hnext⟩
    obtain ⟨b, mid', hread', ⟨⟩⟩ := bind_apply_eq_ok.mp hnext
    obtain ⟨ha, rfl⟩ := (h _ _ _).mp hread
    obtain ⟨hb, rfl⟩ := (h' _ _ _).mp hread'
    exact ⟨⟨a, b, ⟨ha, hb⟩, rfl⟩, by rw [hwrite, List.append_assoc]⟩
  · rintro ⟨⟨a, b, ⟨ha, hb⟩, rfl⟩, rfl⟩
    refine ⟨a, writeB b ++ rest, (h _ _ _).mpr ⟨ha, by rw [hwrite, List.append_assoc]⟩, ?_⟩
    exact bind_apply_eq_ok.mpr ⟨b, rest, (h' _ _ _).mpr ⟨hb, rfl⟩, rfl⟩

/-- Elements that are valid one after the other. -/
theorem reads_counted {σ : Type} {r : σ → LayoutReader ε α} {next : α → σ}
    {valid : σ → α → Prop} (h : ∀ s, Reads (r s) (valid s) write)
    (s : σ) (n : Nat) :
    Reads (counted r next s n) (fun as => as.length = n ∧ Linked valid next s as)
      (fun as => (as.map write).flatten) := by
  induction n generalizing s with
  | zero =>
    apply reads_pure rfl
    intro as
    constructor
    · exact fun has => List.eq_nil_of_length_eq_zero has.1
    · rintro rfl
      exact ⟨rfl, trivial⟩
  | succ n ih =>
    intro bytes as rest
    unfold counted
    rw [bind_apply_eq_ok]
    constructor
    · rintro ⟨a, mid, hread, hnext⟩
      obtain ⟨as', mid', hreads, ⟨⟩⟩ := bind_apply_eq_ok.mp hnext
      obtain ⟨ha, rfl⟩ := (h s _ _ _).mp hread
      obtain ⟨⟨rfl, has⟩, rfl⟩ := (ih (next a) _ _ _).mp hreads
      exact ⟨⟨rfl, ha, has⟩, (List.append_assoc (write a) (as'.map write).flatten rest).symm⟩
    · rintro ⟨⟨hlength, hlinked⟩, rfl⟩
      cases as with
      | nil => cases hlength
      | cons a as =>
        refine ⟨a, (as.map write).flatten ++ rest, (h s _ _ _).mpr ⟨hlinked.1, ?_⟩, ?_⟩
        · exact List.append_assoc (write a) (as.map write).flatten rest
        · exact bind_apply_eq_ok.mpr ⟨as, rest,
            (ih (next a) _ _ _).mpr ⟨⟨Nat.succ.inj hlength, hlinked.2⟩, rfl⟩, rfl⟩

/-! ### Fields -/

theorem reads_field (n : Nat) (short : ε) :
    Reads (field n short) (fun bytes => bytes.length = n) (fun bytes => bytes) := by
  intro bytes a rest
  unfold field
  by_cases h : n ≤ bytes.length
  · rw [if_pos h]
    constructor
    · rintro ⟨⟩
      exact ⟨List.length_take_of_le h, (List.take_append_drop n bytes).symm⟩
    · rintro ⟨rfl, rfl⟩
      rw [List.take_left, List.drop_left]
  · rw [if_neg h]
    refine ⟨nofun, ?_⟩
    rintro ⟨rfl, rfl⟩
    exact absurd (by rw [List.length_append]; exact Nat.le_add_right _ _) h

/-- A field of fixed length with a decoder of its own. -/
theorem reads_block {n : Nat} {short invalid : ε} {f : List UInt8 → Option α}
    (hlength : ∀ a, valid a → (write a).length = n)
    (hf : ∀ bytes a, bytes.length = n → (f bytes = some a ↔ valid a ∧ write a = bytes)) :
    Reads (convert (field n short) f invalid) valid write := by
  apply (reads_field n short).convert
  · intro a
    constructor
    · intro ha
      exact ⟨write a, hlength a ha, (hf _ a (hlength a ha)).mpr ⟨ha, rfl⟩⟩
    · rintro ⟨bytes, hbytes, hdecode⟩
      exact ((hf bytes a hbytes).mp hdecode).1
  · intro bytes a hbytes hdecode
    exact ((hf bytes a hbytes).mp hdecode).2

/-- Two numbers side by side. -/
theorem ofBigEndian_take_drop {n m p q : Nat} (h : bytes.length = n + m) :
    ofBigEndian (bytes.take n) = p ∧ ofBigEndian (bytes.drop n) = q ↔
      p < 256 ^ n ∧ q < 256 ^ m ∧ bigEndian n p ++ bigEndian m q = bytes := by
  have htake : (bytes.take n).length = n := by
    rw [List.length_take]
    omega
  have hdrop : (bytes.drop n).length = m := by
    rw [List.length_drop]
    omega
  constructor
  · rintro ⟨rfl, rfl⟩
    have hp := ofBigEndian_lt (bytes.take n)
    have hq := ofBigEndian_lt (bytes.drop n)
    have hleft := bigEndian_ofBigEndian (bytes.take n)
    have hright := bigEndian_ofBigEndian (bytes.drop n)
    rw [htake] at hp hleft
    rw [hdrop] at hq hright
    exact ⟨hp, hq, by rw [hleft, hright, List.take_append_drop]⟩
  · rintro ⟨hp, hq, rfl⟩
    have hlength : (bigEndian n p).length = n := length_bigEndian n p
    rw [List.take_left' hlength, List.drop_left' hlength]
    exact ⟨ofBigEndian_bigEndian hp, ofBigEndian_bigEndian hq⟩

theorem reads_byte (short : ε) : Reads (byte short) (fun _ => True) (fun b => [b]) := by
  intro bytes b rest
  cases bytes with
  | nil => exact ⟨nofun, fun h => by cases h.2⟩
  | cons =>
    constructor
    · rintro ⟨⟩
      exact ⟨trivial, rfl⟩
    · rintro ⟨-, ⟨⟩⟩
      rfl

theorem reads_number (n : Nat) (short : ε) :
    Reads (number n short) (fun v => v < 256 ^ n) (bigEndian n) := by
  intro bytes v rest
  unfold number
  rw [bind_apply_eq_ok]
  constructor
  · rintro ⟨digits, mid, hread, ⟨⟩⟩
    obtain ⟨rfl, rfl⟩ := (reads_field n short _ _ _).mp hread
    exact ⟨ofBigEndian_lt digits, by rw [bigEndian_ofBigEndian]⟩
  · rintro ⟨hv, rfl⟩
    refine ⟨bigEndian n v, rest, (reads_field n short _ _ _).mpr ⟨length_bigEndian n v, rfl⟩, ?_⟩
    rw [ofBigEndian_bigEndian hv]
    rfl

end Layout

end Windshare.Library
