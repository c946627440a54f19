import Mathlib.Data.List.Infix
import ProxyPlane.Proofs.Codecs
import ProxyPlane.Proofs.Document
import ProxyPlane.Proofs.Shapes
import ProxyPlane.Subscription.Body

/-!
# The links in a body

The body of a subscription is a document of servers, a list of lines, or such a list in Base64, and
nothing says which.  The three do not get in each other's way.  A document begins with a bracket or
a brace, and neither is a digit of Base64.  A line with a link has a colon, which is no digit
either.  So a list gives the same links in each of the forms of Base64 and by itself, whatever
blanks stand around it.

## What is here

* `hasScheme_iff` — a text holds a link when `://` stands in it.
* `Text.trim_surrounded` — blanks around a text are of no account.
* `Server.ofDocument?_eq_none` — what begins with neither bracket nor brace is no document.
* `Base64.decodeAny?_surrounded`, `Base64.decodeAny?_eq_none` — what is read as Base64, and what is
  not.
* `linkLines` — the lines of a text that hold a link; `linksOfBody_agrees` is that these are the
  links of its body, however it is encoded.
-/

set_option autoImplicit false
namespace ProxyPlane

open Text (isBlank trim)

/-! ## Lines with links -/

/-- A text holds a link when `://` stands somewhere in it. -/
theorem hasScheme_iff {s : List Char} : hasScheme s = true ↔ "://".toList <:+: s := by
  unfold hasScheme
  fun_induction splitLink? s with
  | case1 => simp
  | case2 rest => simpa using ⟨[], rest, rfl⟩
  | case3 c rest hother ih =>
    rw [Option.isSome_map, ih, List.infix_cons_iff]
    refine (or_iff_right ?_).symm
    rintro ⟨more, hmore⟩
    cases hmore
    exact hother more rfl rfl

/-- The lines of a text that hold a link, without the blanks around it. -/
def linkLines (text : String) : List String :=
  (((splitLines text.toList).map trim).filter fun line => "://".toList <:+: line).map String.ofList

theorem linksOfLines_eq (text : String) : linksOfLines text.toList = linkLines text := by
  rw [linksOfLines, linkLines]
  congr 2
  funext line
  rw [Bool.eq_iff_iff, hasScheme_iff, decide_eq_true_iff]

/-! ## Blanks around a text -/

namespace Text

theorem trim_append_left {before : List Char} (h : ∀ c ∈ before, isBlank c = true)
    (s : List Char) : trim (before ++ s) = trim s := by
  rw [trim, List.dropWhile_append_of_pos h, ← trim]

theorem trim_append_right {behind : List Char} (h : ∀ c ∈ behind, isBlank c = true)
    (s : List Char) : trim (s ++ behind) = trim s := by
  have hdrop : behind.dropWhile isBlank = [] := List.dropWhile_eq_nil_iff.2 h
  rw [trim, List.dropWhile_append]
  split
  · next hempty =>
    rw [List.isEmpty_iff] at hempty
    rw [hdrop, trim, hempty]
  · rw [List.reverse_append, List.dropWhile_append_of_pos (by simpa using h), ← trim]

/-- **Blanks around a text are of no account.** -/
theorem trim_surrounded {before behind : List Char} (hbefore : ∀ c ∈ before, isBlank c = true)
    (hbehind : ∀ c ∈ behind, isBlank c = true) {s : List Char} (hs : ∀ c ∈ s, isBlank c = false) :
    trim (before ++ s ++ behind) = s := by
  rw [trim_append_right hbehind, trim_append_left hbefore, trim_of_none hs]

theorem mem_dropWhile_of_not {p : Char → Bool} {s : List Char} {c : Char} (h : c ∈ s)
    (hc : p c = false) : c ∈ s.dropWhile p := by
  rw [← List.takeWhile_append_dropWhile (p := p) (l := s), List.mem_append] at h
  refine h.resolve_left fun htake => ?_
  rw [List.mem_takeWhile_imp htake] at hc
  cases hc

/-- A character that is no blank is not lost. -/
theorem mem_trim {s : List Char} {c : Char} (h : c ∈ s) (hc : isBlank c = false) : c ∈ trim s := by
  rw [trim, List.mem_reverse]
  exact mem_dropWhile_of_not (List.mem_reverse.2 (mem_dropWhile_of_not h hc)) hc

end Text

/-! ## What is read as Base64 -/

namespace Base64

variable {form : Form} {bytes : List UInt8}

theorem not_isBlank_of_mem_encode {c : Char} (h : c ∈ encode form bytes) : isBlank c = false := by
  obtain h | rfl | ⟨-, rfl | rfl⟩ | ⟨-, rfl | rfl⟩ := mem_encode h
  · exact not_isBlank_of_isAlphanum h
  all_goals rfl

/-- Nothing with a sign that is neither a digit nor the padding is read. -/
theorem decode?_eq_none {s : List Char} {c : Char} (hc : c ∈ s) (hpad : c ≠ '=')
    (hvalue : form.value? c = none) : decode? form s = none := by
  rw [Option.eq_none_iff_forall_ne_some]
  intro bytes h
  obtain ⟨digits, values, hdigits, hvalues, -⟩ := decode?_eq_some_iff.1 h
  have hmem : c ∈ digits := by
    rw [Form.unpad?] at hdigits
    split at hdigits
    · dsimp only at hdigits
      split at hdigits
      · next hshape =>
        rw [hshape.2.1, Option.some.inj hdigits, List.mem_append] at hc
        exact hc.resolve_right fun h => hpad (List.eq_of_mem_replicate h)
      · cases hdigits
    · rwa [← Option.some.inj hdigits]
  have hsome : form.value? c ∈ values.map some :=
    mapM_eq_some_iff.1 hvalues ▸ List.mem_map_of_mem hmem
  rw [hvalue] at hsome
  simp at hsome

/-- **A text in Base64 is read with blanks around it.** -/
theorem decodeAny?_surrounded {before behind : List Char}
    (hbefore : ∀ c ∈ before, isBlank c = true) (hbehind : ∀ c ∈ behind, isBlank c = true) :
    decodeAny? (before ++ encode form bytes ++ behind) = some bytes := by
  rw [decodeAny?, Text.trim_surrounded hbefore hbehind fun c => not_isBlank_of_mem_encode]
  exact findSome?_encode form.mem_all bytes

theorem Form.value?_colon (form : Form) : form.value? ':' = none := by
  obtain ⟨_ | _, padded⟩ := form <;> rfl

/-- A text with a colon is no Base64. -/
theorem decodeAny?_eq_none {s : List Char} (h : ':' ∈ s) : decodeAny? s = none := by
  rw [decodeAny?, List.findSome?_eq_none_iff]
  intro form _
  exact decode?_eq_none (Text.mem_trim h rfl) (by decide) form.value?_colon

end Base64

/-! ## What is read as a document -/

/-- A byte of ASCII stands in the bytes of a text for its character alone. -/
theorem Utf8.byte_notMem_encode {s : List Char} {d : Char} (hd : d.toNat < 128) (h : d ∉ s) :
    Json.byte d ∉ encode s := by
  intro hmem
  obtain ⟨c, hc, hbyte⟩ := List.mem_flatMap.1 hmem
  have hvalue : (Json.byte d).toNat = d.toNat := toNat_ofNat_of_lt (by omega)
  by_cases hascii : c.toNat < 128
  · rw [utf8EncodeChar_of_lt hascii, List.mem_singleton] at hbyte
    have hchar : d.toNat = c.toNat := by
      rw [← hvalue, hbyte, toNat_ofNat_of_lt (by omega)]
    exact h (Char.toNat_inj.1 hchar ▸ hc)
  · have hle := le_of_mem_utf8EncodeChar (Nat.le_of_not_lt hascii) hbyte
    omega

/-- What has neither bracket nor brace is no document. -/
theorem Server.ofDocument?_eq_none {s : List Char} (h : ∀ c ∈ s, c ≠ '[' ∧ c ≠ '\x7b') :
    ofDocument? (Utf8.encode s) = none := by
  have hbytes : ∀ b ∈ Utf8.encode s, b ≠ Json.byte '[' ∧ b ≠ Json.byte '\x7b' := by
    intro b hb
    constructor
    · rintro rfl
      exact Utf8.byte_notMem_encode (by decide) (fun hc => (h _ hc).1 rfl) hb
    · rintro rfl
      exact Utf8.byte_notMem_encode (by decide) (fun hc => (h _ hc).2 rfl) hb
  rw [ofDocument?]
  split
  · rfl
  · next hparse => exact absurd hparse (Json.Shape.parse_record_ne_ok hbytes _)

/-! ## The links of a body -/

/-- A body that is no document holds the lines of its text, or of what is behind it in Base64. -/
theorem linksOfBody_of_not_document {s : List Char}
    (h : Server.ofDocument? (Utf8.encode s) = none) :
    linksOfBody (Utf8.encode s) =
      linksOfLines (((Base64.decodeAny? s).bind Utf8.decode?).getD s) := by
  rw [linksOfBody, h]
  simp only [Utf8.decodeLossy_encode]

/-- No text in Base64 begins a document. -/
theorem Server.ofDocument?_encoded {form : Base64.Form} {bytes : List UInt8}
    {before behind : List Char} (hbefore : ∀ c ∈ before, isBlank c = true)
    (hbehind : ∀ c ∈ behind, isBlank c = true) :
    ofDocument? (Utf8.encode (before ++ Base64.encode form bytes ++ behind)) = none := by
  have hblank : ∀ c, isBlank c = true → c ≠ '[' ∧ c ≠ '\x7b' := by
    intro c hc
    constructor <;> rintro rfl <;> exact absurd hc (by decide)
  refine ofDocument?_eq_none fun c hc => ?_
  rw [List.mem_append, List.mem_append] at hc
  obtain (hc | hc) | hc := hc
  · exact hblank c (hbefore c hc)
  · obtain hc | rfl | ⟨-, rfl | rfl⟩ | ⟨-, rfl | rfl⟩ := Base64.mem_encode hc
    · constructor <;> rintro rfl <;> exact absurd hc (by decide)
    all_goals decide
  · exact hblank c (hbehind c hc)

/-- **The links of a text are the same however it is encoded.**  A list in Base64 gives the bytes of
its text in whatever order the forms are tried, whatever blanks stand around it, and so the lines of
the text that hold a link; the text by itself gives the same ones, if it has any link at all and is
no document of servers. -/
theorem linksOfBody_agrees (text : String) (form : Base64.Form) {before behind : List Char}
    (hbefore : ∀ c ∈ before, isBlank c = true) (hbehind : ∀ c ∈ behind, isBlank c = true) :
    let written := before ++ Base64.encode form (Utf8.encode text.toList) ++ behind
    (∀ order : List Base64.Form, order.Perm Base64.Form.all →
      (order.findSome? fun f => Base64.decode? f (trim written)) =
        some (Utf8.encode text.toList)) ∧
    Base64.decodeAny? written = some (Utf8.encode text.toList) ∧
    linksOfBody (Utf8.encode written) = linkLines text ∧
    ("://".toList <:+: text.toList → Server.ofDocument? (Utf8.encode text.toList) = none →
      linksOfBody (Utf8.encode text.toList) = linkLines text) := by
  have htrim : trim (before ++ Base64.encode form (Utf8.encode text.toList) ++ behind) =
      Base64.encode form (Utf8.encode text.toList) :=
    Text.trim_surrounded hbefore hbehind fun c => Base64.not_isBlank_of_mem_encode
  refine ⟨fun order horder => ?_, Base64.decodeAny?_surrounded hbefore hbehind, ?_, ?_⟩
  · rw [htrim]
    exact Base64.findSome?_encode (horder.mem_iff.2 form.mem_all) _
  · rw [linksOfBody_of_not_document (Server.ofDocument?_encoded hbefore hbehind),
      Base64.decodeAny?_surrounded hbefore hbehind, Option.bind_some, Utf8.decode?_encode,
      Option.getD_some, linksOfLines_eq]
  · intro hlink hdocument
    have hcolon : ':' ∈ text.toList := hlink.subset (by decide)
    rw [linksOfBody_of_not_document hdocument, Base64.decodeAny?_eq_none hcolon, Option.bind_none,
      Option.getD_none, linksOfLines_eq]

/-- Two links with a note between them, the way a provider sends them and in unpadded URL-safe
digits between blank lines. -/
theorem links_of_note_and_digits :
    let text := "ss://YQ@h:1\r\n# two more >>>\r\n  trojan://k@h:2#東京 \n"
    let written := "\r\n\u3000".toList ++ Base64.encode ⟨true, false⟩ (Utf8.encode text.toList)
      ++ " \n".toList
    Base64.decodeAny? written = some (Utf8.encode text.toList) ∧
    linksOfBody (Utf8.encode written) = ["ss://YQ@h:1", "trojan://k@h:2#東京"] ∧
    linksOfBody (Utf8.encode text.toList) = ["ss://YQ@h:1", "trojan://k@h:2#東京"] := by
  intro text written
  have hlines : linkLines text = ["ss://YQ@h:1", "trojan://k@h:2#東京"] := by decide +kernel
  have hplain : text.toList.all (fun c => c != '[' && c != '\x7b') = true := by decide +kernel
  obtain ⟨-, hbytes, hwritten, htext⟩ := @linksOfBody_agrees text ⟨true, false⟩
    "\r\n\u3000".toList " \n".toList (List.all_eq_true.1 (by decide))
    (List.all_eq_true.1 (by decide))
  refine ⟨hbytes, hwritten.trans hlines, (htext (by decide +kernel) ?_).trans hlines⟩
  exact Server.ofDocument?_eq_none fun c hc => by simpa using List.all_eq_true.1 hplain c hc

end ProxyPlane
