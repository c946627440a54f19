import ProxyPlane.Config.Printer
import ProxyPlane.Proofs.Readers

/-!
# Texts and their tokens

Which words and which quoted texts a source can hold, and the tokens of a text put together from
them.  The reader goes on right behind each token that it takes, whatever stands there, so there is
one equation for each kind of token, and the tokens of a text follow from them one by one.

## Main definitions

* `IsWord` — the characters are read as one word, whatever blank or delimiter stands behind them.
* `Lexeme.Written` — the words and the quoted texts that some source holds.
* `Spells` — a text has these tokens, wherever it begins.
* `Stops` — the characters end a word in front of them.
-/

set_option autoImplicit false
namespace ProxyPlane
namespace Config

open Text (isBlank)

/-! ## Words -/

/-- Nothing in a word ends it, and its first character begins no other token. -/
structure IsWord (w : List Char) : Prop where
  unbroken : splitWord w = (w, [])
  nonempty : w ≠ []
  first : ∀ c ∈ w.head?, c ≠ '!' ∧ c ≠ '#' ∧ c ≠ '&'

instance (w : List Char) : Decidable (IsWord w) :=
  decidable_of_iff (splitWord w = (w, []) ∧ w ≠ [] ∧
      w.head? ≠ some '!' ∧ w.head? ≠ some '#' ∧ w.head? ≠ some '&')
    ⟨fun ⟨hu, hn, hneg, hhash, hand⟩ => ⟨hu, hn, fun _ hc =>
        ⟨fun he => hneg (he ▸ hc), fun he => hhash (he ▸ hc), fun he => hand (he ▸ hc)⟩⟩,
      fun h => ⟨h.unbroken, h.nonempty, fun hc => (h.first _ hc).1 rfl,
        fun hc => (h.first _ hc).2.1 rfl, fun hc => (h.first _ hc).2.2 rfl⟩⟩

/-- A blank, a delimiter or the end of the text. -/
def Stops (s : List Char) : Prop :=
  ∀ c ∈ s.head?, isBlank c = true ∨ isDelimiter c = true

/-- A word ends before a blank or a delimiter, and before the pairs `->` and `&&`. -/
theorem endsWord_cons_iff {c : Char} {s : List Char} :
    endsWord (c :: s) = true ↔
      (isBlank c = true ∨ isDelimiter c = true) ∨ (c = '-' ∧ s.head? = some '>') ∨
        (c = '&' ∧ s.head? = some '&') := by
  unfold endsWord
  split
  · rename_i heq
    cases heq
  · rename_i heq
    cases heq
    simp
  · rename_i heq
    cases heq
    simp
  · rename_i d rest harrow hand heq
    cases heq
    have ha : ¬ (c = '-' ∧ s.head? = some '>') := fun ⟨hc, hs⟩ => by
      obtain ⟨more, hm⟩ := List.head?_eq_some_iff.1 hs
      exact harrow more hc hm
    have hc : ¬ (c = '&' ∧ s.head? = some '&') := fun ⟨hc, hs⟩ => by
      obtain ⟨more, hm⟩ := List.head?_eq_some_iff.1 hs
      exact hand more hc hm
    simp [ha, hc]

theorem splitWord_cons {c : Char} {s : List Char} (h : ¬ endsWord (c :: s) = true) :
    splitWord (c :: s) = (c :: (splitWord s).1, (splitWord s).2) := by
  rw [splitWord, if_neg h]

theorem splitWord_of_endsWord {s : List Char} (h : endsWord s = true) : splitWord s = ([], s) := by
  cases s with
  | nil => rfl
  | cons c s => rw [splitWord, if_pos h]

theorem head?_splitWord {s : List Char} {c : Char} (h : (splitWord s).1.head? = some c) :
    s.head? = some c := by
  rw [← splitWord_append s, List.head?_append, h, Option.some_or]

/-- A word is one also when nothing stands behind it. -/
theorem splitWord_splitWord (s : List Char) :
    splitWord (splitWord s).1 = ((splitWord s).1, []) := by
  induction s with
  | nil => rfl
  | cons c rest ih =>
    by_cases hc : endsWord (c :: rest) = true
    · rw [splitWord_of_endsWord hc]
      rfl
    · rw [splitWord_cons hc]
      have hc' : ¬ endsWord (c :: (splitWord rest).1) = true := by
        rw [endsWord_cons_iff] at hc ⊢
        rintro (h | ⟨rfl, h⟩ | ⟨rfl, h⟩)
        · exact hc (.inl h)
        · exact hc (.inr (.inl ⟨rfl, head?_splitWord h⟩))
        · exact hc (.inr (.inr ⟨rfl, head?_splitWord h⟩))
      rw [splitWord_cons hc', ih]

/-- Where a word goes on behind its first character, it was not ended before. -/
theorem splitWord_cons_inv {c : Char} {s w rest : List Char}
    (h : splitWord (c :: s) = (c :: w, rest)) :
    ¬ endsWord (c :: s) = true ∧ splitWord s = (w, rest) := by
  by_cases hc : endsWord (c :: s) = true
  · rw [splitWord_of_endsWord hc] at h
    cases h
  · rw [splitWord_cons hc] at h
    simp only [Prod.mk.injEq, List.cons.injEq, true_and] at h
    exact ⟨hc, Prod.ext h.1 h.2⟩

theorem Stops.head?_ne {s : List Char} {c : Char} (h : Stops s) (hb : isBlank c = false)
    (hd : isDelimiter c = false) : s.head? ≠ some c := by
  intro hc
  rcases h c hc with h | h
  · rw [hb] at h; cases h
  · rw [hd] at h; cases h

/-- What stands behind a text makes no pair with its last character. -/
theorem endsWord_append_of_stops {c : Char} {w s : List Char} (hs : Stops s) :
    endsWord (c :: (w ++ s)) = true ↔ endsWord (c :: w) = true := by
  have head (d : Char) (hb : isBlank d = false) (hd : isDelimiter d = false) :
      (w ++ s).head? = some d ↔ w.head? = some d := by
    cases w with
    | nil => exact ⟨fun h => absurd h (hs.head?_ne hb hd), nofun⟩
    | cons x w => exact Iff.rfl
  rw [endsWord_cons_iff, endsWord_cons_iff, head '>' (by decide) (by decide),
    head '&' (by decide) (by decide)]

/-- **A blank or a delimiter behind a text leaves the word at its beginning as it is.** -/
theorem splitWord_append_stops {s : List Char} (w : List Char) (hs : Stops s) :
    splitWord (w ++ s) = ((splitWord w).1, (splitWord w).2 ++ s) := by
  induction w with
  | nil =>
    cases s with
    | nil => rfl
    | cons c s => exact splitWord_of_endsWord (endsWord_cons_iff.2 (.inl (hs c rfl)))
  | cons c w ih =>
    by_cases hc : endsWord (c :: w) = true
    · have hc' := (endsWord_append_of_stops hs).2 hc
      rw [List.cons_append, splitWord_of_endsWord hc', splitWord_of_endsWord hc]
      rfl
    · have hc' := mt (endsWord_append_of_stops hs).1 hc
      rw [List.cons_append, splitWord_cons hc', splitWord_cons hc, ih]

/-- A word is read whole from a text that goes on with a blank or a delimiter. -/
theorem splitWord_append_of_stops {w s : List Char} (hw : splitWord w = (w, [])) (hs : Stops s) :
    splitWord (w ++ s) = (w, s) := by
  rw [splitWord_append_stops w hs, hw]
  rfl

theorem hasPair_cons_iff {a b c : Char} {w : List Char} :
    hasPair a b (c :: w) = true ↔ (c = a ∧ w.head? = some b) ∨ hasPair a b w = true := by
  cases w with
  | nil => simp [hasPair]
  | cons d w => simp [hasPair]

/-- A text has no end inside just when it has none of the pairs and characters that end a word. -/
theorem splitWord_eq_self_iff {w : List Char} : splitWord w = (w, []) ↔
    hasPair '-' '>' w ≠ true ∧ hasPair '&' '&' w ≠ true ∧
      ∀ c ∈ w, ¬ (isBlank c = true ∨ isDelimiter c = true) := by
  induction w with
  | nil => exact ⟨fun _ => ⟨nofun, nofun, nofun⟩, fun _ => rfl⟩
  | cons c w ih =>
    simp only [ne_eq, hasPair_cons_iff, List.forall_mem_cons, not_or]
    constructor
    · intro h
      obtain ⟨hc, hw⟩ := splitWord_cons_inv h
      obtain ⟨ha, hb, hm⟩ := ih.1 hw
      simp only [endsWord_cons_iff, not_or] at hc
      exact ⟨⟨hc.2.1, ha⟩, ⟨hc.2.2, hb⟩, hc.1, fun d hd => not_or.1 (hm d hd)⟩
    · rintro ⟨⟨harrow, ha⟩, ⟨hand, hb⟩, hc, hm⟩
      have hgoes : ¬ endsWord (c :: w) = true := by
        simp only [endsWord_cons_iff, not_or]
        exact ⟨hc, harrow, hand⟩
      rw [splitWord_cons hgoes, ih.2 ⟨ha, hb, fun d hd => not_or.2 (hm d hd)⟩]

/-- **A word is what is written bare**, unless it begins with `&`. -/
theorem isWord_iff {w : List Char} :
    IsWord w ↔ needsQuotes w = false ∧ w.head? ≠ some '&' := by
  have hneeds : needsQuotes w = false ↔ splitWord w = (w, []) ∧ w ≠ [] ∧
      w.head? ≠ some '!' ∧ w.head? ≠ some '#' := by
    rw [splitWord_eq_self_iff, needsQuotes]
    simp only [Bool.or_eq_false_iff, List.isEmpty_eq_false_iff, beq_eq_false_iff_ne, ne_eq,
      Bool.not_eq_true, List.any_eq_false, not_or]
    constructor
    · rintro ⟨⟨⟨⟨⟨hne, hneg⟩, hhash⟩, harrow⟩, hand⟩, hplain⟩
      exact ⟨⟨harrow, hand, hplain⟩, hne, hneg, hhash⟩
    · rintro ⟨⟨harrow, hand, hplain⟩, hne, hneg, hhash⟩
      exact ⟨⟨⟨⟨⟨hne, hneg⟩, hhash⟩, harrow⟩, hand⟩, hplain⟩
  rw [hneeds]
  constructor
  · intro h
    exact ⟨⟨h.unbroken, h.nonempty, fun hc => (h.first _ hc).1 rfl, fun hc => (h.first _ hc).2.1 rfl⟩,
      fun hc => (h.first _ hc).2.2 rfl⟩
  · rintro ⟨⟨hsplit, hne, hneg, hhash⟩, hand⟩
    refine ⟨hsplit, hne, fun c hc => ⟨?_, ?_, ?_⟩⟩
    · rintro rfl
      exact hneg hc
    · rintro rfl
      exact hhash hc
    · rintro rfl
      exact hand hc

theorem IsWord.needsQuotes {w : List Char} (h : IsWord w) : needsQuotes w = false :=
  (isWord_iff.1 h).1

/-! ## What a source holds -/

/-- The words and the quoted texts that some source holds. -/
def Lexeme.Written : Lexeme → Prop
  | .word text => IsWord text.toList
  | .quoted text => '\'' ∉ text.toList ∨ '"' ∉ text.toList
  | _ => True

instance : DecidablePred Lexeme.Written
  | .word text => inferInstanceAs (Decidable (IsWord text.toList))
  | .quoted text => inferInstanceAs (Decidable ('\'' ∉ text.toList ∨ '"' ∉ text.toList))
  | .openBrace | .closeBrace | .openParen | .closeParen | .colon | .comma | .semicolon
  | .conjunction | .negation | .arrow => .isTrue trivial

theorem not_mem_of_splitQuoted {quote : Char} {s text rest : List Char}
    (h : splitQuoted quote s = some (text, rest)) : quote ∉ text := by
  induction s generalizing text with
  | nil => cases h
  | cons c s ih =>
    unfold splitQuoted at h
    split at h
    · cases h
      simp
    · rename_i hc
      obtain ⟨⟨t, r⟩, hr, he⟩ := Option.map_eq_some_iff.1 h
      cases he
      simp [ih hr, Ne.symm hc]

theorem append_of_splitQuoted {q : Char} {s text rest : List Char}
    (h : splitQuoted q s = some (text, rest)) : s = text ++ q :: rest := by
  induction s generalizing text with
  | nil => cases h
  | cons c s ih =>
    unfold splitQuoted at h
    split at h
    · next hc =>
      cases h
      rw [hc, List.nil_append]
    · obtain ⟨⟨t, r⟩, hr, he⟩ := Option.map_eq_some_iff.1 h
      cases he
      rw [ih hr, List.cons_append]

theorem punctuation?_written {c : Char} {l : Lexeme} (h : punctuation? c = some l) : l.Written := by
  unfold punctuation? at h
  split at h <;> cases h <;> trivial

/-- A delimiter is a token of its own or a quote. -/
theorem punctuation?_of_isDelimiter {c : Char} (h : isDelimiter c = true) :
    (c = '\'' ∨ c = '"') ∨ punctuation? c ≠ none := by
  simp only [isDelimiter, Bool.or_eq_true, beq_iff_eq] at h
  rcases h with (((((((rfl | rfl) | rfl) | rfl) | rfl) | rfl) | rfl) | rfl) | rfl
  case inr => exact .inl (.inr rfl)
  case inl.inr => exact .inl (.inl rfl)
  all_goals exact .inr (by decide)

theorem isDelimiter_of_punctuation? {c : Char} {l : Lexeme} (h : punctuation? c = some l)
    (hn : c ≠ '!') : isDelimiter c = true := by
  unfold punctuation? at h
  split at h <;> first | rfl | exact absurd rfl hn | cases h

/-- Where no other token begins, no word ends. -/
theorem not_endsWord_of_read {c : Char} {rest : List Char}
    (ha : ∀ more, c = '-' → rest = '>' :: more → False) (hamp : c ≠ '&') (hb : ¬ isBlank c = true)
    (hq : ¬ (c = '\'' ∨ c = '"')) (hp : punctuation? c = none) :
    ¬ endsWord (c :: rest) = true := by
  rw [endsWord_cons_iff]
  rintro ((h | h) | ⟨h, hs⟩ | ⟨h, -⟩)
  · exact hb h
  · exact (punctuation?_of_isDelimiter h).elim hq (· hp)
  · obtain ⟨more, hm⟩ := List.head?_eq_some_iff.1 hs
    exact ha more h hm
  · exact hamp h

/-- What is read as a word, because no other token begins there, is one. -/
theorem isWord_of_read {c : Char} {rest : List Char}
    (ha : ∀ more, c = '-' → rest = '>' :: more → False) (hamp : c ≠ '&') (hb : ¬ isBlank c = true)
    (hc : c ≠ '#') (hq : ¬ (c = '\'' ∨ c = '"')) (hp : punctuation? c = none) :
    IsWord (c :: (splitWord rest).1) := by
  have ha' (more : List Char) (hdash : c = '-') (hmore : (splitWord rest).1 = '>' :: more) :
      False := by
    obtain ⟨more', hm⟩ := List.head?_eq_some_iff.1 (head?_splitWord (by rw [hmore]; rfl))
    exact ha more' hdash hm
  have hgoes := not_endsWord_of_read ha' hamp hb hq hp
  refine ⟨by rw [splitWord_cons hgoes, splitWord_splitWord], List.cons_ne_nil _ _, ?_⟩
  intro d hd
  cases hd
  refine ⟨?_, hc, hamp⟩
  rintro rfl
  cases hp

theorem tokens_of_cons {r : Except (Position × LexicalProblem) TokenStream} {t : Token}
    {stream : TokenStream} (h : (do return (← r).cons t) = .ok stream) :
    ∃ rest, r = .ok rest ∧ stream.tokens = t :: rest.tokens := by
  match r, h with
  | .ok rest, h =>
    cases h
    exact ⟨rest, rfl, rfl⟩

/-- **Every word and every quoted text of a source is written in it.** -/
theorem tokenizeFrom_written {p : Position} {s : List Char} {stream : TokenStream}
    (h : tokenizeFrom p s = .ok stream) : ∀ l ∈ lexemes stream.tokens, l.Written := by
  have cons {r : Except (Position × LexicalProblem) TokenStream} {t : Token} {stream : TokenStream}
      (h : (do return (← r).cons t) = .ok stream) (ht : t.lexeme.Written)
      (ih : ∀ {rest : TokenStream}, r = .ok rest → ∀ l ∈ lexemes rest.tokens, l.Written) :
      ∀ l ∈ lexemes stream.tokens, l.Written := by
    obtain ⟨rest, hr, hs⟩ := tokens_of_cons h
    rw [hs]
    exact List.forall_mem_cons.2 ⟨ht, ih hr⟩
  fun_induction tokenizeFrom p s generalizing stream with
  | case1 =>
    cases h
    exact nofun
  | case2 p rest ih => exact cons h trivial ih
  | case3 p rest ih => exact cons h trivial ih
  | case4 => cases h
  | case5 p c rest ha hand hamp hb ih => exact ih h
  | case6 p rest ha hand hamp hb ih => exact ih h
  | case7 => cases h
  | case8 p c rest ha hand hamp hb hc hq text more hs ih =>
    refine cons h ?_ ih
    have hm := not_mem_of_splitQuoted hs
    rw [Lexeme.Written, String.toList_ofList]
    rcases hq with rfl | rfl
    · exact .inl hm
    · exact .inr hm
  | case9 p c rest ha hand hamp hb hc hq l hl ih => exact cons h (punctuation?_written hl) ih
  | case10 p c rest ha hand hamp hb hc hq hn =>
    rename_i ih
    refine cons h ?_ ih
    rw [Lexeme.Written, String.toList_ofList]
    exact isWord_of_read ha hamp hb hc hq hn

/-! ## One token more

What the reading of a text that begins with a token comes to: that token, and the reading of what is
behind it. -/

section
variable {p : Position} {s : List Char}

theorem tokenizeFrom_arrow : tokenizeFrom p (['-', '>'] ++ s) = do
    return (← tokenizeFrom (p.after ['-', '>']) s).cons ⟨.arrow, p⟩ := by
  rw [List.cons_append, List.singleton_append, tokenizeFrom.eq_def]
  rfl

theorem tokenizeFrom_conjunction : tokenizeFrom p (['&', '&'] ++ s) = do
    return (← tokenizeFrom (p.after ['&', '&']) s).cons ⟨.conjunction, p⟩ := by
  rw [List.cons_append, List.singleton_append, tokenizeFrom.eq_def]
  rfl

/-- How the tokens go on where neither `->` nor a `&` stands. -/
theorem tokenizeFrom_cons {c : Char} (hdash : c = '-' → s.head? ≠ some '>')
    (hand : c ≠ '&') :
    tokenizeFrom p (c :: s) =
      if isBlank c then tokenizeFrom (p.next c) s
      else if c = '#' then
        tokenizeFrom (p.after ((c :: s).takeWhile (· != '\n'))) (s.dropWhile (· != '\n'))
      else if c = '\'' ∨ c = '"' then
        match splitQuoted c s with
        | none => .error (p, .unterminated)
        | some (text, more) => do
          return (← tokenizeFrom (p.after (c :: text ++ [c])) more).cons
            ⟨.quoted (String.ofList text), p⟩
      else
        match punctuation? c with
        | some lexeme => do return (← tokenizeFrom (p.next c) s).cons ⟨lexeme, p⟩
        | none => do
          return (← tokenizeFrom (p.after (c :: (splitWord s).1)) (splitWord s).2).cons
            ⟨.word (String.ofList (c :: (splitWord s).1)), p⟩ := by
  rw [tokenizeFrom.eq_def]
  split
  · rename_i heq
    cases heq
  · rename_i heq
    cases heq
    exact absurd rfl (hdash rfl)
  · rename_i heq
    cases heq
    exact absurd rfl hand
  · rename_i heq
    cases heq
    exact absurd rfl hand
  · rename_i heq
    cases heq
    refine ite_congr rfl (fun _ => rfl) fun _ => ite_congr rfl (fun _ => rfl) fun _ =>
      ite_congr rfl (fun _ => ?_) fun _ => rfl
    split
    · rename_i hs
      rw [hs]
    · rename_i hs
      rw [hs]

theorem tokenizeFrom_blank {c : Char} (hc : isBlank c = true) :
    tokenizeFrom p ([c] ++ s) = tokenizeFrom (p.after [c]) s := by
  have hdash : c ≠ '-' := by rintro rfl; cases hc
  have hand : c ≠ '&' := by rintro rfl; cases hc
  rw [List.singleton_append, tokenizeFrom_cons (absurd · hdash) hand, if_pos hc]
  rfl

/-- A comment ends in front of a line break. -/
theorem tokenizeFrom_comment {line : List Char} (hline : '\n' ∉ line)
    (hs : ∀ c ∈ s.head?, c = '\n') :
    tokenizeFrom p ('#' :: line ++ s) = tokenizeFrom (p.after ('#' :: line)) s := by
  have hgoes : ∀ c ∈ line, (c != '\n') = true := fun c hc =>
    bne_iff_ne.2 fun heq => hline (heq ▸ hc)
  have hbreak : s.takeWhile (· != '\n') = [] ∧ s.dropWhile (· != '\n') = s := by
    cases s with
    | nil => exact ⟨rfl, rfl⟩
    | cons c s =>
      obtain rfl : c = '\n' := hs c rfl
      exact ⟨rfl, rfl⟩
  have htake : ('#' :: (line ++ s)).takeWhile (· != '\n') = '#' :: line := by
    rw [List.takeWhile_cons_of_pos (by decide), List.takeWhile_append_of_pos hgoes, hbreak.1,
      List.append_nil]
  have hdrop : (line ++ s).dropWhile (· != '\n') = s := by
    rw [List.dropWhile_append_of_pos hgoes, hbreak.2]
  have hdash : '#' ≠ '-' := by decide
  rw [List.cons_append, tokenizeFrom_cons (absurd · hdash) (by decide), if_neg (by decide),
    if_pos rfl, htake, hdrop]

theorem splitQuoted_append {q : Char} {text : List Char} (hm : q ∉ text) :
    splitQuoted q (text ++ q :: s) = some (text, s) := by
  induction text with
  | nil => simp [splitQuoted]
  | cons c text ih =>
    rw [List.mem_cons, not_or] at hm
    rw [List.cons_append, splitQuoted, if_neg (Ne.symm hm.1), ih hm.2]
    rfl

theorem tokenizeFrom_quoted {q : Char} {text : List Char} (hq : q = '\'' ∨ q = '"')
    (htext : q ∉ text) : tokenizeFrom p (q :: text ++ [q] ++ s) = do
      return (← tokenizeFrom (p.after (q :: text ++ [q])) s).cons
        ⟨.quoted (String.ofList text), p⟩ := by
  have hother : q ≠ '-' ∧ q ≠ '&' ∧ ¬ isBlank q = true ∧ q ≠ '#' := by
    rcases hq with rfl | rfl <;> decide
  obtain ⟨hdash, hand, hblank, hhash⟩ := hother
  rw [List.append_assoc, List.cons_append, List.singleton_append,
    tokenizeFrom_cons (absurd · hdash) hand, if_neg hblank, if_neg hhash, if_pos hq,
    splitQuoted_append htext]

/-- A token of one character is no blank and begins nothing else. -/
theorem punctuation?_other {c : Char} {l : Lexeme} (hc : punctuation? c = some l) :
    c ≠ '-' ∧ c ≠ '&' ∧ ¬ isBlank c = true ∧ c ≠ '#' ∧ ¬ (c = '\'' ∨ c = '"') := by
  unfold punctuation? at hc
  split at hc <;> cases hc <;> decide

theorem tokenizeFrom_punctuation {c : Char} {l : Lexeme} (hc : punctuation? c = some l) :
    tokenizeFrom p ([c] ++ s) = do return (← tokenizeFrom (p.after [c]) s).cons ⟨l, p⟩ := by
  obtain ⟨hdash, hand, hblank, hhash, hquote⟩ := punctuation?_other hc
  rw [List.singleton_append, tokenizeFrom_cons (absurd · hdash) hand, if_neg hblank, if_neg hhash,
    if_neg hquote, hc]
  rfl

/-- Where no other token begins, a word is read, however it ends. -/
theorem tokenizeFrom_splitWord {c : Char} (hdash : c = '-' → s.head? ≠ some '>') (hand : c ≠ '&')
    (hblank : ¬ isBlank c = true) (hhash : c ≠ '#') (hquote : ¬ (c = '\'' ∨ c = '"'))
    (hpunctuation : punctuation? c = none) : tokenizeFrom p (c :: s) = do
      return (← tokenizeFrom (p.after (c :: (splitWord s).1)) (splitWord s).2).cons
        ⟨.word (String.ofList (c :: (splitWord s).1)), p⟩ := by
  rw [tokenizeFrom_cons hdash hand, if_neg hblank, if_neg hhash, if_neg hquote, hpunctuation]

/-- A word is read whole in front of a blank or a delimiter. -/
theorem tokenizeFrom_word {w : List Char} (hw : IsWord w) (hs : Stops s) :
    tokenizeFrom p (w ++ s) = do
      return (← tokenizeFrom (p.after w) s).cons ⟨.word (String.ofList w), p⟩ := by
  obtain ⟨c, w, rfl⟩ := List.exists_cons_of_ne_nil hw.nonempty
  obtain ⟨hneg, hhash, hand⟩ := hw.first c rfl
  have hwhole : splitWord (c :: (w ++ s)) = (c :: w, s) :=
    splitWord_append_of_stops hw.unbroken hs
  obtain ⟨hgoes, hsplit⟩ := splitWord_cons_inv hwhole
  rw [endsWord_cons_iff, not_or, not_or] at hgoes
  obtain ⟨⟨hblank, hdelimiter⟩, hpair⟩ := hgoes
  have hquote : ¬ (c = '\'' ∨ c = '"') := by
    rintro (rfl | rfl) <;> exact hdelimiter rfl
  have hpunctuation : punctuation? c = none := by
    rw [Option.eq_none_iff_forall_ne_some]
    exact fun l hl => hdelimiter (isDelimiter_of_punctuation? hl hneg)
  have hdash : c = '-' → (w ++ s).head? ≠ some '>' := fun hc hs => hpair (.inl ⟨hc, hs⟩)
  rw [List.cons_append, tokenizeFrom_splitWord hdash hand hblank hhash hquote hpunctuation, hsplit]

end

/-! ## Putting texts together -/

/-- A text has these tokens, wherever it begins. -/
def Spells (s : List Char) (ls : List Lexeme) : Prop :=
  ∀ p, ∃ stream, tokenizeFrom p s = .ok stream ∧ lexemes stream.tokens = ls

theorem spells_nil : Spells [] [] := by
  intro p
  refine ⟨⟨[], p⟩, ?_, rfl⟩
  unfold tokenizeFrom
  rfl

variable {s : List Char} {ls : List Lexeme}

/-- One token more in front of a text. -/
theorem Spells.token {text : List Char} {l : Lexeme} (h : Spells s ls)
    (hread : ∀ p, tokenizeFrom p (text ++ s) = do
      return (← tokenizeFrom (p.after text) s).cons ⟨l, p⟩) : Spells (text ++ s) (l :: ls) := by
  intro p
  obtain ⟨stream, ht, rfl⟩ := h (p.after text)
  refine ⟨stream.cons ⟨l, p⟩, ?_, rfl⟩
  rw [hread, ht]
  rfl

theorem spells_arrow (h : Spells s ls) : Spells ('-' :: '>' :: s) (.arrow :: ls) :=
  h.token fun _ => tokenizeFrom_arrow

theorem spells_conjunction (h : Spells s ls) : Spells ('&' :: '&' :: s) (.conjunction :: ls) :=
  h.token fun _ => tokenizeFrom_conjunction

theorem spells_blank {c : Char} (hc : isBlank c = true) (h : Spells s ls) :
    Spells (c :: s) ls := by
  intro p
  obtain ⟨stream, ht, hl⟩ := h (p.after [c])
  exact ⟨stream, (tokenizeFrom_blank hc).trans ht, hl⟩

theorem spells_punctuation {c : Char} {l : Lexeme} (hc : punctuation? c = some l)
    (h : Spells s ls) : Spells (c :: s) (l :: ls) :=
  h.token fun _ => tokenizeFrom_punctuation hc

theorem spells_comment (h : Spells (s.dropWhile (· != '\n')) ls) : Spells ('#' :: s) ls := by
  intro p
  obtain ⟨stream, ht, hl⟩ := h (p.after (('#' :: s).takeWhile (· != '\n')))
  refine ⟨stream, ?_, hl⟩
  have hdash : '#' ≠ '-' := by decide
  rw [tokenizeFrom_cons (absurd · hdash) (by decide), if_neg (by decide), if_pos rfl, ht]

theorem spells_splitWord {c : Char} (hdash : c = '-' → s.head? ≠ some '>') (hand : c ≠ '&')
    (hblank : ¬ isBlank c = true) (hhash : c ≠ '#') (hquote : ¬ (c = '\'' ∨ c = '"'))
    (hpunctuation : punctuation? c = none) (h : Spells (splitWord s).2 ls) :
    Spells (c :: s) (.word (String.ofList (c :: (splitWord s).1)) :: ls) := by
  have hword : Spells ((c :: (splitWord s).1) ++ (splitWord s).2)
      (.word (String.ofList (c :: (splitWord s).1)) :: ls) := h.token fun p => by
    rw [List.cons_append, splitWord_append]
    exact tokenizeFrom_splitWord hdash hand hblank hhash hquote hpunctuation
  rwa [List.cons_append, splitWord_append] at hword

theorem spells_word {w : List Char} (hw : IsWord w) (hs : Stops s) (h : Spells s ls) :
    Spells (w ++ s) (.word (String.ofList w) :: ls) :=
  h.token fun _ => tokenizeFrom_word hw hs

theorem spells_quoted {q : Char} {text : List Char} (hq : q = '\'' ∨ q = '"') (hm : q ∉ text)
    (h : Spells s ls) :
    Spells (q :: (text ++ q :: s)) (.quoted (String.ofList text) :: ls) := by
  have hquoted := h.token fun p => tokenizeFrom_quoted (p := p) hq hm
  simpa using hquoted

end Config
end ProxyPlane
