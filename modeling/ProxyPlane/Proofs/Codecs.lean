import Mathlib.Data.List.TakeWhile
import ProxyPlane.Text.Base64
import ProxyPlane.Text.Percent

/-!
# Texts behind bytes and escapes

A text goes into UTF-8, Base64 or escapes and comes back as it was.  Each of the three is read one
unit at a time — a scalar value, a group of four digits, an escape — so there is one lemma about a
unit with anything behind it, and the law for whole texts is an induction on it.

Base64 has four forms, and a reader that does not know which of them it has in front of it tries one
after the other.  The order does not matter: two forms that both read a text read the same bytes.

## What is here

* `Utf8.decodeRuns_utf8EncodeChar` — the bytes of a character are one run, whatever follows.
* `Utf8.decode?_encode`, `Utf8.decodeLossy_encode` — both readers give a text back.
* `Base64.sextets`, `Base64.encode_eq` — what is written: digits of six bits each, and the padding.
* `Base64.decode?_encode`, `Base64.decode?_unique` — a form reads what it wrote, and no other form
  reads anything else from it.
* `Base64.findSome?_encode` — in whatever order the forms are tried.
* `Percent.decode?_encodeText` — escapes stand for what was escaped.
-/

set_option autoImplicit false
namespace ProxyPlane

/-- A function gives something for every item of a list just when it gives the items of another. -/
theorem mapM_eq_some_iff {α β : Type} {f : α → Option β} {l : List α} {l' : List β} :
    l.mapM f = some l' ↔ l.map f = l'.map some := by
  induction l generalizing l' with
  | nil => cases l' <;> simp
  | cons a l ih =>
    rw [List.mapM_cons, List.map_cons]
    cases hf : f a with
    | none => cases l' <;> simp
    | some b =>
      cases l' with
      | nil => cases l.mapM f <;> simp
      | cons b' l' =>
        rw [List.map_cons, List.cons.injEq, ← ih]
        cases l.mapM f <;> simp

theorem toNat_ofNat_of_lt {n : Nat} (h : n < 256) : (UInt8.ofNat n).toNat = n := by
  rw [UInt8.toNat_ofNat', Nat.mod_eq_of_lt h]

theorem ofNat_eq_of_toNat {b : UInt8} {n : Nat} (h : n = b.toNat) : UInt8.ofNat n = b := by
  rw [h, UInt8.ofNat_toNat]

/-! ## UTF-8 -/

namespace Utf8

/-- A continuation byte that falls into its range is taken. -/
theorem takeTails_cons {acc n : Nat} {span : Span} {spans : List Span} {s : List UInt8}
    (hlow : span.low.toNat ≤ n + 128) (hhigh : n + 128 ≤ span.high.toNat) (hn : n < 64) :
    takeTails acc (span :: spans) (UInt8.ofNat (n + 128) :: s) =
      takeTails (acc * 64 + n) spans s := by
  have hb : (UInt8.ofNat (n + 128)).toNat = n + 128 := toNat_ofNat_of_lt (by omega)
  rw [takeTails, if_pos, hb, Nat.add_sub_cancel]
  rw [UInt8.le_iff_toNat_le, UInt8.le_iff_toNat_le, hb]
  exact ⟨hlow, hhigh⟩

theorem takeTails_tail {acc n : Nat} {spans : List Span} {s : List UInt8} (hn : n < 64) :
    takeTails acc (tail :: spans) (UInt8.ofNat (n + 128) :: s) =
      takeTails (acc * 64 + n) spans s :=
  takeTails_cons (Nat.le_add_left ..) (by change _ ≤ 191; omega) hn

/-- The range of the second of three bytes: it keeps out what two bytes can say, and halves of
characters. -/
def secondOfThree (n : Nat) : Span :=
  if n = 0 then ⟨0xA0, 0xBF⟩ else if n = 13 then ⟨0x80, 0x9F⟩ else tail

/-- The range of the second of four bytes: it keeps out what three bytes can say, and what is beyond
the last character. -/
def secondOfFour (n : Nat) : Span :=
  if n = 0 then ⟨0x90, 0xBF⟩ else if n = 4 then ⟨0x80, 0x8F⟩ else tail

theorem secondOfThree_holds {a b : Nat} (hb : b < 64) (hlow : a = 0 → 32 ≤ b)
    (hhigh : a = 13 → b < 32) :
    (secondOfThree a).low.toNat ≤ b + 128 ∧ b + 128 ≤ (secondOfThree a).high.toNat := by
  unfold secondOfThree
  split
  · change 160 ≤ _ ∧ _ ≤ 191
    omega
  split
  · change 128 ≤ _ ∧ _ ≤ 159
    omega
  · change 128 ≤ _ ∧ _ ≤ 191
    omega

theorem secondOfFour_holds {a b : Nat} (hb : b < 64) (hlow : a = 0 → 16 ≤ b)
    (hhigh : a = 4 → b < 16) :
    (secondOfFour a).low.toNat ≤ b + 128 ∧ b + 128 ≤ (secondOfFour a).high.toNat := by
  unfold secondOfFour
  split
  · change 144 ≤ _ ∧ _ ≤ 191
    omega
  split
  · change 128 ≤ _ ∧ _ ≤ 143
    omega
  · change 128 ≤ _ ∧ _ ≤ 191
    omega

theorem lead?_one {n : Nat} (h : n < 128) : lead? (UInt8.ofNat n) = some (n, []) := by
  have hb : (UInt8.ofNat n).toNat = n := toNat_ofNat_of_lt (by omega)
  rw [lead?, if_pos (UInt8.lt_iff_toNat_lt.2 (by rwa [hb])), hb]

theorem lead?_two {n : Nat} (hlow : 2 ≤ n) (h : n < 32) :
    lead? (UInt8.ofNat (n + 192)) = some (n, [tail]) := by
  have hb : (UInt8.ofNat (n + 192)).toNat = n + 192 := toNat_ofNat_of_lt (by omega)
  generalize UInt8.ofNat (n + 192) = b at hb
  simp only [lead?, UInt8.lt_iff_toNat_lt, ← UInt8.toNat_inj, hb, UInt8.reduceToNat]
  grind

theorem lead?_three {n : Nat} (h : n < 16) :
    lead? (UInt8.ofNat (n + 224)) = some (n, [secondOfThree n, tail]) := by
  have hb : (UInt8.ofNat (n + 224)).toNat = n + 224 := toNat_ofNat_of_lt (by omega)
  generalize UInt8.ofNat (n + 224) = b at hb
  simp only [lead?, secondOfThree, UInt8.lt_iff_toNat_lt, ← UInt8.toNat_inj, hb,
    UInt8.reduceToNat]
  grind

theorem lead?_four {n : Nat} (h : n ≤ 4) :
    lead? (UInt8.ofNat (n + 240)) = some (n, [secondOfFour n, tail, tail]) := by
  have hb : (UInt8.ofNat (n + 240)).toNat = n + 240 := toNat_ofNat_of_lt (by omega)
  generalize UInt8.ofNat (n + 240) = b at hb
  simp only [lead?, secondOfFour, UInt8.lt_iff_toNat_lt, ← UInt8.toNat_inj, hb, UInt8.reduceToNat]
  grind

theorem decodeRuns_of_lead? {b : UInt8} {rest more : List UInt8} {bits n : Nat}
    {spans : List Span} (hlead : lead? b = some (bits, spans))
    (htails : takeTails bits spans rest = (some n, more)) :
    decodeRuns (b :: rest) = some (Char.ofNat n) :: decodeRuns more := by
  rw [decodeRuns, next, hlead]
  simp only [htails]
  rfl

/-- **The bytes of a character are one run**, whatever follows. -/
theorem decodeRuns_utf8EncodeChar (c : Char) (rest : List UInt8) :
    decodeRuns (String.utf8EncodeChar c ++ rest) = some c :: decodeRuns rest := by
  have hvalid : c.val.toNat < 0xD800 ∨ 0xDFFF < c.val.toNat ∧ c.val.toNat < 0x110000 := c.valid
  have hchar : some c = some (Char.ofNat c.val.toNat) :=
    congrArg some (Char.ofNat_toNat c).symm
  rw [hchar]
  unfold String.utf8EncodeChar
  generalize c.val.toNat = v at hvalid
  dsimp only
  split
  · exact decodeRuns_of_lead? (lead?_one (by omega)) rfl
  split
  · refine decodeRuns_of_lead? (lead?_two (by omega) (by omega)) ?_
    rw [List.append_eq, List.singleton_append, takeTails_tail (by omega), takeTails]
    congr 2
    omega
  split
  · have hsecond := secondOfThree_holds (a := v / 4096 % 16) (b := v / 64 % 64) (by omega)
      (by omega) (by omega)
    refine decodeRuns_of_lead? (lead?_three (by omega)) ?_
    rw [List.append_eq, List.cons_append, takeTails_cons hsecond.1 hsecond.2 (by omega),
      List.singleton_append, takeTails_tail (by omega), takeTails]
    congr 2
    omega
  · have hsecond := secondOfFour_holds (a := v / 262144 % 8) (b := v / 4096 % 64) (by omega)
      (by omega) (by omega)
    refine decodeRuns_of_lead? (lead?_four (by omega)) ?_
    rw [List.append_eq, List.cons_append, takeTails_cons hsecond.1 hsecond.2 (by omega),
      List.cons_append, takeTails_tail (by omega), List.singleton_append,
      takeTails_tail (by omega), takeTails]
    congr 2
    omega

theorem decodeRuns_encode (s : List Char) : decodeRuns (encode s) = s.map some := by
  induction s with
  | nil =>
    rw [encode, List.flatMap_nil, decodeRuns]
    rfl
  | cons c s ih =>
    rw [encode, List.flatMap_cons, decodeRuns_utf8EncodeChar, ← encode, ih]
    rfl

/-- **A text is read back from its bytes.** -/
theorem decode?_encode (s : List Char) : decode? (encode s) = some s := by
  rw [decode?, decodeRuns_encode, mapM_eq_some_iff, List.map_id]

theorem decodeLossy_encode (s : List Char) : decodeLossy (encode s) = s := by
  rw [decodeLossy, decodeRuns_encode, List.map_map]
  exact List.map_id s

/-- A character beyond ASCII has no byte of ASCII. -/
theorem le_of_mem_utf8EncodeChar {c : Char} (hc : 128 ≤ c.toNat) {b : UInt8}
    (hb : b ∈ String.utf8EncodeChar c) : 128 ≤ b.toNat := by
  have hval : 128 ≤ c.val.toNat := hc
  unfold String.utf8EncodeChar at hb
  generalize c.val.toNat = v at hval hb
  dsimp only at hb
  rw [if_neg (by omega)] at hb
  split at hb
  · simp only [List.mem_cons, List.not_mem_nil, or_false] at hb
    rcases hb with rfl | rfl <;> rw [toNat_ofNat_of_lt (by omega)] <;> omega
  split at hb
  · simp only [List.mem_cons, List.not_mem_nil, or_false] at hb
    rcases hb with rfl | rfl | rfl <;> rw [toNat_ofNat_of_lt (by omega)] <;> omega
  · simp only [List.mem_cons, List.not_mem_nil, or_false] at hb
    rcases hb with rfl | rfl | rfl | rfl <;> rw [toNat_ofNat_of_lt (by omega)] <;> omega

theorem utf8EncodeChar_of_lt {c : Char} (hc : c.toNat < 128) :
    String.utf8EncodeChar c = [UInt8.ofNat c.toNat] := by
  unfold String.utf8EncodeChar
  exact if_pos (Nat.le_of_lt_succ hc)

end Utf8

/-! ## Base64 -/

namespace Base64

/-- Bytes cut into groups of six bits, the last one filled up with zeros. -/
def sextets : List UInt8 → List Nat
  | [] => []
  | [a] => [a.toNat / 4, a.toNat % 4 * 16]
  | [a, b] => [a.toNat / 4, a.toNat % 4 * 16 + b.toNat / 16, b.toNat % 16 * 4]
  | a :: b :: c :: rest =>
    a.toNat / 4 :: (a.toNat % 4 * 16 + b.toNat / 16) :: (b.toNat % 16 * 4 + c.toNat / 64)
      :: c.toNat % 64 :: sextets rest

/-- How many characters the last group of four lacks. -/
def shortage (bytes : List UInt8) : Nat := (3 - bytes.length % 3) % 3

theorem shortage_cons (a b c : UInt8) (rest : List UInt8) :
    shortage (a :: b :: c :: rest) = shortage rest := by
  simp only [shortage, List.length_cons]
  omega

/-- What is written is the digits of all groups and the padding. -/
theorem encode_eq (form : Form) (bytes : List UInt8) :
    encode form bytes = (sextets bytes).map form.digit ++ form.padding (shortage bytes) := by
  induction bytes using sextets.induct with
  | case1 => simp [encode, sextets, shortage, Form.padding]
  | case2 a => rfl
  | case3 a b => rfl
  | case4 a b c rest ih =>
    rw [encode, sextets, ih, shortage_cons]
    rfl

theorem length_sextets_add_shortage (bytes : List UInt8) :
    ((sextets bytes).length + shortage bytes) % 4 = 0 := by
  induction bytes using sextets.induct with
  | case1 => rfl
  | case2 a => simp [sextets, shortage]
  | case3 a b => simp [sextets, shortage]
  | case4 a b c rest ih =>
    simp only [sextets, shortage_cons, List.length_cons]
    omega

theorem lt_of_mem_sextets {bytes : List UInt8} : ∀ n ∈ sextets bytes, n < 64 := by
  induction bytes using sextets.induct with
  | case1 => exact nofun
  | case2 a =>
    have ha := a.toNat_lt
    simp only [sextets, List.forall_mem_cons, List.not_mem_nil, false_imp_iff, implies_true,
      and_true]
    omega
  | case3 a b =>
    have ha := a.toNat_lt
    have hb := b.toNat_lt
    simp only [sextets, List.forall_mem_cons, List.not_mem_nil, false_imp_iff, implies_true,
      and_true]
    omega
  | case4 a b c rest ih =>
    have ha := a.toNat_lt
    have hb := b.toNat_lt
    have hc := c.toNat_lt
    simp only [sextets, List.forall_mem_cons]
    exact ⟨by omega, by omega, by omega, by omega, ih⟩

theorem bytesOfDigits?_sextets (bytes : List UInt8) :
    bytesOfDigits? (sextets bytes) = some bytes := by
  induction bytes using sextets.induct with
  | case1 => rfl
  | case2 a =>
    have ha : a.toNat / 4 * 4 + a.toNat % 4 * 16 / 16 = a.toNat := by omega
    rw [sextets, bytesOfDigits?, if_pos (by omega), ofNat_eq_of_toNat ha]
  | case3 a b =>
    have hlt := b.toNat_lt
    have ha : a.toNat / 4 * 4 + (a.toNat % 4 * 16 + b.toNat / 16) / 16 = a.toNat := by omega
    have hb : (a.toNat % 4 * 16 + b.toNat / 16) % 16 * 16 + b.toNat % 16 * 4 / 4 = b.toNat := by
      omega
    rw [sextets, bytesOfDigits?, if_pos (by omega), ofNat_eq_of_toNat ha, ofNat_eq_of_toNat hb]
  | case4 a b c rest ih =>
    have hltb := b.toNat_lt
    have hltc := c.toNat_lt
    have ha : a.toNat / 4 * 4 + (a.toNat % 4 * 16 + b.toNat / 16) / 16 = a.toNat := by omega
    have hb : (a.toNat % 4 * 16 + b.toNat / 16) % 16 * 16
        + (b.toNat % 16 * 4 + c.toNat / 64) / 4 = b.toNat := by omega
    have hc : (b.toNat % 16 * 4 + c.toNat / 64) % 4 * 64 + c.toNat % 64 = c.toNat := by omega
    rw [sextets, bytesOfDigits?, ih, ofNat_eq_of_toNat ha, ofNat_eq_of_toNat hb,
      ofNat_eq_of_toNat hc]
    rfl

theorem Form.value?_digit (form : Form) {n : Nat} (h : n < 64) :
    form.value? (form.digit n) = some n := by
  have hall : ∀ urlSafe padded : Bool, ∀ n < 64,
      (⟨urlSafe, padded⟩ : Form).value? (Form.digit ⟨urlSafe, padded⟩ n) = some n := by
    decide +kernel
  exact hall form.urlSafe form.padded n h

/-- Every digit is a letter, a figure or one of the two signs of its alphabet. -/
theorem Form.digit_cases (form : Form) {n : Nat} (h : n < 64) :
    (form.digit n).isAlphanum = true ∨
      (form.urlSafe = true ∧ (form.digit n = '-' ∨ form.digit n = '_')) ∨
      (form.urlSafe = false ∧ (form.digit n = '+' ∨ form.digit n = '/')) := by
  have hall : ∀ urlSafe padded : Bool, ∀ n < 64,
      (Form.digit ⟨urlSafe, padded⟩ n).isAlphanum = true ∨
        (urlSafe = true ∧ (Form.digit ⟨urlSafe, padded⟩ n = '-' ∨
          Form.digit ⟨urlSafe, padded⟩ n = '_')) ∨
        (urlSafe = false ∧ (Form.digit ⟨urlSafe, padded⟩ n = '+' ∨
          Form.digit ⟨urlSafe, padded⟩ n = '/')) := by
    decide +kernel
  exact hall form.urlSafe form.padded n h

/-- The characters of a text in Base64. -/
theorem mem_encode {form : Form} {bytes : List UInt8} {c : Char} (h : c ∈ encode form bytes) :
    c.isAlphanum = true ∨ c = '=' ∨ (form.urlSafe = true ∧ (c = '-' ∨ c = '_')) ∨
      (form.urlSafe = false ∧ (c = '+' ∨ c = '/')) := by
  rw [encode_eq, List.mem_append, List.mem_map] at h
  obtain ⟨n, hn, rfl⟩ | h := h
  · exact (form.digit_cases (lt_of_mem_sextets n hn)).imp_right .inr
  · rw [Form.padding] at h
    split at h
    · exact .inr (.inl (List.eq_of_mem_replicate h))
    · cases h

theorem Form.value?_equals (form : Form) : form.value? '=' = none := by
  obtain ⟨_ | _, padded⟩ := form <;> rfl

/-- No sign that pads stands in front of the padding. -/
theorem ne_equals_of_value? {form : Form} {c : Char} {n : Nat} (h : form.value? c = some n) :
    (c != '=') = true := by
  rw [bne_iff_ne]
  rintro rfl
  rw [form.value?_equals] at h
  cases h

theorem Form.unpad?_encode (form : Form) (bytes : List UInt8) :
    form.unpad? (encode form bytes) = some ((sextets bytes).map form.digit) := by
  rw [encode_eq, Form.unpad?, Form.padding]
  have hgroups := length_sextets_add_shortage bytes
  have hplain : ∀ c ∈ (sextets bytes).map form.digit, (c != '=') = true := by
    intro c hc
    obtain ⟨n, hn, rfl⟩ := List.mem_map.1 hc
    exact ne_equals_of_value? (form.value?_digit (lt_of_mem_sextets n hn))
  have htake : ((sextets bytes).map form.digit ++ List.replicate (shortage bytes) '=').takeWhile
      (· != '=') = (sextets bytes).map form.digit := by
    rw [List.takeWhile_append_of_pos hplain]
    cases shortage bytes <;> simp
  have hshort : shortage bytes ≤ 2 := by
    unfold shortage
    omega
  split
  · simp only [htake, List.length_append, List.length_map, List.length_replicate,
      Nat.add_sub_cancel_left]
    exact if_pos ⟨hgroups, trivial, hshort⟩
  · rw [List.append_nil]

/-- **A form reads what it wrote.** -/
theorem decode?_encode (form : Form) (bytes : List UInt8) :
    decode? form (encode form bytes) = some bytes := by
  have hvalues : ((sextets bytes).map form.digit).mapM form.value? = some (sextets bytes) := by
    rw [mapM_eq_some_iff, List.map_map]
    exact List.map_congr_left fun n hn => form.value?_digit (lt_of_mem_sextets n hn)
  rw [decode?, form.unpad?_encode]
  change ((_ : List Char).mapM form.value?).bind bytesOfDigits? = _
  rw [hvalues, Option.bind_some, bytesOfDigits?_sextets]

/-- The alphabets do not contradict each other. -/
theorem Form.value?_unique {f g : Form} {c : Char} {m n : Nat} (hf : f.value? c = some m)
    (hg : g.value? c = some n) : m = n := by
  have hsigns : ∀ f g : Form, f.digit 62 ≠ g.digit 63 := by
    rintro ⟨_ | _, p⟩ ⟨_ | _, q⟩ <;> simp [Form.digit]
  rw [Form.value?] at hf hg
  -- letters and figures have one value in both
  split at hf
  · rw [if_pos ‹_›] at hg
    exact Option.some.inj (hf.symm.trans hg)
  rw [if_neg ‹_›] at hg
  split at hf
  · rw [if_pos ‹_›] at hg
    exact Option.some.inj (hf.symm.trans hg)
  rw [if_neg ‹_›] at hg
  split at hf
  · rw [if_pos ‹_›] at hg
    exact Option.some.inj (hf.symm.trans hg)
  rw [if_neg ‹_›] at hg
  -- and no sign that one uses for 62 is used for 63 by the other
  split at hf
  · next hc =>
    cases hf
    split at hg
    · exact Option.some.inj hg
    · rw [if_neg (hc ▸ hsigns f g)] at hg
      cases hg
  split at hf
  · next hc =>
    cases hf
    rw [if_neg (hc ▸ (hsigns g f).symm)] at hg
    split at hg
    · exact Option.some.inj hg
    · cases hg
  · cases hf

theorem values_unique {f g : Form} {digits : List Char} {m n : List Nat}
    (hf : digits.mapM f.value? = some m) (hg : digits.mapM g.value? = some n) : m = n := by
  rw [mapM_eq_some_iff] at hf hg
  induction digits generalizing m n with
  | nil =>
    rw [List.map_nil, eq_comm, List.map_eq_nil_iff] at hf hg
    rw [hf, hg]
  | cons c digits ih =>
    rw [List.map_cons, eq_comm, List.map_eq_cons_iff] at hf hg
    obtain ⟨a, m, rfl, ha, hm⟩ := hf
    obtain ⟨b, n, rfl, hb, hn⟩ := hg
    rw [Form.value?_unique ha.symm hb.symm, ih hm.symm hn.symm]

theorem decode?_eq_some_iff {form : Form} {s : List Char} {bytes : List UInt8} :
    decode? form s = some bytes ↔ ∃ digits values, form.unpad? s = some digits ∧
      digits.mapM form.value? = some values ∧ bytesOfDigits? values = some bytes := by
  simp only [decode?, bind, Option.bind_eq_some_iff]
  constructor
  · rintro ⟨digits, hd, values, hv, hb⟩
    exact ⟨digits, values, hd, hv, hb⟩
  · rintro ⟨digits, values, hd, hv, hb⟩
    exact ⟨digits, hd, values, hv, hb⟩

/-- A text without padding is its own digits in every form. -/
theorem Form.unpad?_of_digits {f g : Form} {s digits : List Char} {values : List Nat}
    (hs : s.mapM g.value? = some values) (h : f.unpad? s = some digits) : digits = s := by
  rw [Form.unpad?] at h
  split at h
  · dsimp only at h
    split at h
    · rw [← Option.some.inj h, List.takeWhile_eq_self_iff]
      intro c hc
      have hvalue : g.value? c ∈ values.map some :=
        mapM_eq_some_iff.1 hs ▸ List.mem_map_of_mem hc
      obtain ⟨n, -, hn⟩ := List.mem_map.1 hvalue
      exact ne_equals_of_value? hn.symm
    · cases h
  · exact (Option.some.inj h).symm

/-- **Two forms that both read a text read the same bytes.** -/
theorem decode?_unique {f g : Form} {s : List Char} {a b : List UInt8}
    (hf : decode? f s = some a) (hg : decode? g s = some b) : a = b := by
  obtain ⟨d, v, hd, hv, ha⟩ := decode?_eq_some_iff.1 hf
  obtain ⟨e, w, he, hw, hb⟩ := decode?_eq_some_iff.1 hg
  have hsame : d = e := by
    cases hpf : f.padded <;> cases hpg : g.padded
    · rw [Form.unpad?, hpf] at hd
      rw [Form.unpad?, hpg] at he
      exact Option.some.inj (hd.symm.trans he)
    · rw [Form.unpad?, hpf] at hd
      cases hd
      exact (Form.unpad?_of_digits hv he).symm
    · rw [Form.unpad?, hpg] at he
      cases he
      exact Form.unpad?_of_digits hw hd
    · rw [Form.unpad?, hpf] at hd
      rw [Form.unpad?, hpg] at he
      exact Option.some.inj (hd.symm.trans he)
  subst hsame
  rw [values_unique hv hw] at ha
  exact Option.some.inj (ha.symm.trans hb)

/-- **What one form wrote is read in any order of the forms.** -/
theorem findSome?_encode {form : Form} {order : List Form} (hform : form ∈ order)
    (bytes : List UInt8) :
    (order.findSome? fun f => decode? f (encode form bytes)) = some bytes := by
  cases hfound : order.findSome? fun f => decode? f (encode form bytes) with
  | none =>
    have hnone := List.findSome?_eq_none_iff.1 hfound form hform
    rw [decode?_encode] at hnone
    cases hnone
  | some found =>
    obtain ⟨f, -, hf⟩ := List.exists_of_findSome?_eq_some hfound
    rw [decode?_unique hf (decode?_encode form bytes)]

theorem Form.mem_all (form : Form) : form ∈ Form.all := by
  obtain ⟨_ | _, _ | _⟩ := form <;> decide

end Base64

/-! ## Escapes -/

namespace Percent

open Text

theorem hexValue?_hexDigitUpper {n : Nat} (h : n < 16) : hexValue? (hexDigitUpper n) = some n := by
  have hall : ∀ n < 16, hexValue? (hexDigitUpper n) = some n := by decide +kernel
  exact hall n h

theorem decodeBytes_escape (b : UInt8) (rest : List Char) :
    decodeBytes (escape b ++ rest) = b :: decodeBytes rest := by
  have hb := b.toNat_lt
  have hvalue : b.toNat / 16 * 16 + b.toNat % 16 = b.toNat := by omega
  rw [escape, List.cons_append, List.cons_append, List.singleton_append, decodeBytes,
    hexValue?_hexDigitUpper (by omega), hexValue?_hexDigitUpper (by omega)]
  simp only [ofNat_eq_of_toNat hvalue]

theorem decodeBytes_escapes (bytes : List UInt8) (rest : List Char) :
    decodeBytes (bytes.flatMap escape ++ rest) = bytes ++ decodeBytes rest := by
  induction bytes with
  | nil => rfl
  | cons b bytes ih =>
    rw [List.flatMap_cons, List.append_assoc, decodeBytes_escape, ih, List.cons_append]

theorem decodeBytes_cons {c : Char} (hc : c ≠ '%') (rest : List Char) :
    decodeBytes (c :: rest) = String.utf8EncodeChar c ++ decodeBytes rest := by
  rw [decodeBytes]
  rintro a b more rfl
  exact absurd rfl hc

/-- A character is read back, escaped or not. -/
theorem decodeBytes_encodeChar {keep : Char → Bool} (hkeep : keep '%' = false) (c : Char)
    (rest : List Char) :
    decodeBytes (encodeChar keep c ++ rest) = String.utf8EncodeChar c ++ decodeBytes rest := by
  rw [encodeChar]
  split
  · next hc =>
    rw [List.singleton_append, decodeBytes_cons]
    rintro rfl
    rw [hkeep] at hc
    cases hc
  · exact decodeBytes_escapes _ _

/-- **Escapes stand for what was escaped.** -/
theorem decode?_encodeText (s : List Char) : decode? (encodeText s) = some s := by
  have hbytes : decodeBytes (encodeText s) = Utf8.encode s := by
    induction s with
    | nil =>
      rw [encodeText, List.flatMap_nil, decodeBytes]
      rfl
    | cons c s ih =>
      rw [encodeText, List.flatMap_cons, decodeBytes_encodeChar (by decide), ← encodeText, ih]
      rfl
  rw [decode?, hbytes, Utf8.decode?_encode]

end Percent
end ProxyPlane
