import Mathlib.Data.List.Induction
import Mathlib.Data.List.TakeWhile
import ProxyPlane.Proofs.Lexer

/-!
# Where the tokens of a text stand

Every token carries the place of its first character, and a text has a place where it ends.  Both
are found by counting along the text, blanks and comments included.  What is counted is told by
cutting the text in front of a token: the part before the cut has the tokens before that token and
no others, and it ends where the token is said to begin.

## Main definitions

* `Lexeme.spellings` — the ways in which a token is written.
* `TokenStream.place` — where a token begins; the end of the text counts as one more token.
* `TokenStream.Cut` — a text is cut in front of a token.
* `tokenizeFrom_cut`, `tokenize_cut` — every text can be cut in front of each of its tokens.
* `place_ne_of_lt` — no two tokens stand at one place.
-/

set_option autoImplicit false
namespace ProxyPlane
namespace Config

open Text (isBlank)

/-! ## Places -/

theorem Position.after_append (p : Position) (s t : List Char) :
    p.after (s ++ t) = (p.after s).after t :=
  List.foldl_append

/-- **Lines and columns are counted from one**: a line for each line break in front, and a column
for each character since the last of them. -/
theorem Position.start_after (s : List Char) :
    start.after s = ⟨1 + s.count '\n', 1 + (s.reverse.takeWhile (· ≠ '\n')).length⟩ := by
  induction s using List.reverseRecOn with
  | nil => rfl
  | append_singleton s c ih =>
    rw [Position.after_append, ih]
    show Position.next _ c = _
    rw [Position.next, List.reverse_append, List.count_append]
    by_cases hc : c = '\n'
    · subst hc
      rfl
    · simp [hc, Nat.add_comm]

/-- A place comes before another one in the same text. -/
def Position.Before (p q : Position) : Prop :=
  p.line < q.line ∨ (p.line = q.line ∧ p.column < q.column)

theorem Position.before_next (p : Position) (c : Char) : p.Before (p.next c) := by
  rw [Position.next]
  split
  · exact .inl (Nat.lt_succ_self _)
  · exact .inr ⟨rfl, Nat.lt_succ_self _⟩

theorem Position.Before.trans {p q r : Position} (h : p.Before q) (h' : q.Before r) :
    p.Before r := by
  unfold Position.Before at *
  omega

/-- A place comes before all that is reached from it. -/
theorem Position.before_after (p : Position) (c : Char) (s : List Char) :
    p.Before (p.after (c :: s)) := by
  induction s generalizing p c with
  | nil => exact p.before_next c
  | cons d s ih => exact (p.before_next c).trans (ih (p.next c) d)

theorem Position.Before.ne {p q : Position} (h : p.Before q) : p ≠ q := by
  rintro rfl
  unfold Position.Before at h
  omega

/-! ## Words and what ends them -/

theorem endsWord_splitWord (s : List Char) : endsWord (splitWord s).2 = true := by
  induction s with
  | nil => rfl
  | cons c rest ih =>
    by_cases hc : endsWord (c :: rest) = true
    · rwa [splitWord_of_endsWord hc]
    · rwa [splitWord_cons hc]

/-- The first character of a text whose end is cut off. -/
theorem head?_of_splitWord {s before behind : List Char} {c : Char}
    (hcut : (splitWord s).2 = before ++ behind) (h : ((splitWord s).1 ++ before).head? = some c) :
    s.head? = some c := by
  rw [← splitWord_append s, hcut, ← List.append_assoc, List.head?_append, h, Option.some_or]

/-- A word ends where it did if only the beginning of what is behind it is left, as long as that
still ends a word. -/
theorem splitWord_cut {s before behind : List Char} (hcut : (splitWord s).2 = before ++ behind)
    (hends : endsWord before = true) :
    splitWord ((splitWord s).1 ++ before) = ((splitWord s).1, before) := by
  induction s with
  | nil =>
    obtain ⟨rfl, -⟩ := List.append_eq_nil_iff.1 hcut.symm
    rfl
  | cons c rest ih =>
    by_cases hc : endsWord (c :: rest) = true
    · rw [splitWord_of_endsWord hc]
      exact splitWord_of_endsWord hends
    · rw [splitWord_cons hc] at hcut ⊢
      have hgoes : ¬ endsWord (c :: ((splitWord rest).1 ++ before)) = true := by
        rw [endsWord_cons_iff] at hc ⊢
        rintro (h | ⟨rfl, h⟩ | ⟨rfl, h⟩)
        · exact hc (.inl h)
        · exact hc (.inr (.inl ⟨rfl, head?_of_splitWord hcut h⟩))
        · exact hc (.inr (.inr ⟨rfl, head?_of_splitWord hcut h⟩))
      rw [List.cons_append, splitWord_cons hgoes, ih hcut]

/-! ## Cutting a text -/

/-- The ways in which a token is written. -/
def Lexeme.spellings : Lexeme → List (List Char)
  | .word text => [text.toList]
  | .quoted text => ['\'' :: text.toList ++ ['\''], '"' :: text.toList ++ ['"']]
  | .openBrace => [['\x7b']]
  | .closeBrace => [['\x7d']]
  | .openParen => [['(']]
  | .closeParen => [[')']]
  | .colon => [[':']]
  | .comma => [[',']]
  | .semicolon => [[';']]
  | .conjunction => [['&', '&']]
  | .negation => [['!']]
  | .arrow => [['-', '>']]

theorem spellings_of_punctuation? {c : Char} {l : Lexeme} (h : punctuation? c = some l) :
    [c] ∈ l.spellings := by
  unfold punctuation? at h
  split at h <;> cases h <;> exact List.mem_singleton.2 rfl

/-- Where a token begins, or the text ends if there is none. -/
def TokenStream.place (stream : TokenStream) (n : Nat) : Position :=
  (stream.tokens[n]?.map Token.position).getD stream.finish

/-- A text that begins at `p` is cut in front of a token: what is before the cut has the tokens
before it and ends at its place, and what is behind the cut begins with it. -/
structure TokenStream.Cut (stream : TokenStream) (p : Position) (n : Nat)
    (before behind : List Char) : Prop where
  tokens : tokenizeFrom p before = .ok ⟨stream.tokens.take n, p.after before⟩
  place : stream.place n = p.after before
  ends : stream.tokens[n]? = none → behind = []
  begins : ∀ t ∈ stream.tokens[n]?, ∃ text ∈ t.lexeme.spellings, text <+: behind

/-- A text can be cut in front of a token, so that what ends a word still ends one. -/
def TokenStream.Splits (stream : TokenStream) (p : Position) (s : List Char) (n : Nat) : Prop :=
  ∃ before behind, s = before ++ behind ∧ stream.Cut p n before behind ∧
    (endsWord s = true → endsWord before = true)

theorem cons_of_tokens {r : Except (Position × LexicalProblem) TokenStream} {t : Token}
    {stream : TokenStream} (h : (do return (← r).cons t) = .ok stream) :
    ∃ rest, r = .ok rest ∧ stream = rest.cons t := by
  match r, h with
  | .ok rest, h =>
    cases h
    exact ⟨rest, rfl, rfl⟩

/-- A text that begins with a token is cut in front of it or behind it. -/
theorem TokenStream.splits_token {stream : TokenStream} {p : Position} {l : Lexeme}
    {text rest : List Char} {n : Nat}
    (h : (do return (← tokenizeFrom (p.after text) rest).cons ⟨l, p⟩) = .ok stream)
    (hn : n ≤ stream.tokens.length) (htext : text ∈ l.spellings)
    (hrest : ∀ {stream}, tokenizeFrom (p.after text) rest = .ok stream →
      ∀ {n}, n ≤ stream.tokens.length → stream.Splits (p.after text) rest n)
    (hread : ∀ before behind, rest = before ++ behind →
      (endsWord rest = true → endsWord before = true) → tokenizeFrom p (text ++ before) = do
        return (← tokenizeFrom (p.after text) before).cons ⟨l, p⟩)
    (hends : endsWord (text ++ rest) = true → ∀ before, endsWord (text ++ before) = true) :
    stream.Splits p (text ++ rest) n := by
  obtain ⟨others, hothers, rfl⟩ := cons_of_tokens h
  cases n with
  | zero =>
    refine ⟨[], text ++ rest, rfl, ⟨?_, rfl, nofun, ?_⟩, fun _ => rfl⟩
    · unfold tokenizeFrom
      rfl
    · intro t ht
      cases ht
      exact ⟨text, htext, List.prefix_append _ _⟩
  | succ n =>
    obtain ⟨before, behind, rfl, hcut, hword⟩ := hrest hothers (Nat.le_of_succ_le_succ hn)
    refine ⟨text ++ before, behind, (List.append_assoc ..).symm, ⟨?_, ?_, hcut.ends, hcut.begins⟩,
      fun hw => hends hw before⟩
    · rw [hread before behind rfl hword, hcut.tokens, Position.after_append]
      rfl
    · rw [Position.after_append, ← hcut.place]
      rfl

/-- A text that begins with what is no token is cut behind that. -/
theorem TokenStream.splits_skip {stream : TokenStream} {p : Position} {text rest : List Char}
    {n : Nat} (hrest : stream.Splits (p.after text) rest n)
    (hread : ∀ before behind, rest = before ++ behind → stream.Cut (p.after text) n before behind →
      tokenizeFrom p (text ++ before) = tokenizeFrom (p.after text) before)
    (hends : endsWord (text ++ rest) = true → ∀ before, endsWord (text ++ before) = true) :
    stream.Splits p (text ++ rest) n := by
  obtain ⟨before, behind, rfl, hcut, -⟩ := hrest
  refine ⟨text ++ before, behind, (List.append_assoc ..).symm, ⟨?_, ?_, hcut.ends, hcut.begins⟩,
    fun hw => hends hw before⟩
  · rw [hread before behind rfl hcut, hcut.tokens, Position.after_append]
  · rw [Position.after_append, hcut.place]

/-- **Every text can be cut in front of each of its tokens.** -/
theorem tokenizeFrom_splits {p : Position} {s : List Char} {stream : TokenStream}
    (h : tokenizeFrom p s = .ok stream) {n : Nat} (hn : n ≤ stream.tokens.length) :
    stream.Splits p s n := by
  fun_induction tokenizeFrom p s generalizing stream n with
  | case1 p =>
    cases h
    refine ⟨[], [], rfl, ⟨?_, rfl, fun _ => rfl, ?_⟩, fun _ => rfl⟩
    · unfold tokenizeFrom
      rw [List.take_nil]
      rfl
    · simp
  | case2 p rest ih =>
    exact TokenStream.splits_token h hn (List.mem_singleton.2 rfl) ih
      (fun _ _ _ _ => tokenizeFrom_arrow) fun _ _ => rfl
  | case3 p rest ih =>
    exact TokenStream.splits_token h hn (List.mem_singleton.2 rfl) ih
      (fun _ _ _ _ => tokenizeFrom_conjunction) fun _ _ => rfl
  | case4 => cases h
  | case5 p c rest ha hand hamp hb ih =>
    exact TokenStream.splits_skip (ih h hn) (fun _ _ _ _ => tokenizeFrom_blank hb)
      fun _ _ => endsWord_cons_iff.2 (.inl (.inl hb))
  | case6 p rest ha hand hamp hb ih =>
    have htake : ('#' :: rest).takeWhile (· != '\n') = '#' :: rest.takeWhile (· != '\n') :=
      List.takeWhile_cons_of_pos (by decide)
    rw [htake] at h ih
    have hsplits : stream.Splits p
        ('#' :: rest.takeWhile (· != '\n') ++ rest.dropWhile (· != '\n')) n := by
      refine TokenStream.splits_skip (ih h hn) (fun before behind hcut _ => ?_) ?_
      · refine tokenizeFrom_comment ?_ fun c hc => ?_
        · intro hmem
          have hne := List.mem_takeWhile_imp hmem
          simp at hne
        · have hbreak := List.head?_dropWhile_not (· != '\n') rest
          rw [hcut, List.head?_append, Option.mem_def.1 hc] at hbreak
          simpa using hbreak
      · intro hw
        rw [List.cons_append, List.takeWhile_append_dropWhile] at hw
        exact absurd hw (not_endsWord_of_read ha hamp hb (by decide) rfl)
    rw [List.cons_append, List.takeWhile_append_dropWhile] at hsplits
    exact hsplits
  | case7 => cases h
  | case8 p c rest ha hand hamp hb hc hq text more hs ih =>
    have hquote := not_mem_of_splitQuoted hs
    have hdelimiter : isDelimiter c = true := by
      rcases hq with rfl | rfl <;> rfl
    have hsplits : stream.Splits p (c :: text ++ [c] ++ more) n := by
      refine TokenStream.splits_token h hn ?_ ih (fun _ _ _ _ => tokenizeFrom_quoted hq hquote)
        fun _ _ => endsWord_cons_iff.2 (.inl (.inr hdelimiter))
      rw [Lexeme.spellings, String.toList_ofList]
      rcases hq with rfl | rfl <;> simp
    rw [append_of_splitQuoted hs]
    simpa using hsplits
  | case9 p c rest ha hand hamp hb hc hq l hl ih =>
    show stream.Splits p ([c] ++ rest) n
    refine TokenStream.splits_token h hn (spellings_of_punctuation? hl) ih
      (fun _ _ _ _ => tokenizeFrom_punctuation hl) fun hw _ => ?_
    have hdelimiter : isDelimiter c = true := by
      refine isDelimiter_of_punctuation? hl ?_
      rintro rfl
      cases hw
    exact endsWord_cons_iff.2 (.inl (.inr hdelimiter))
  | case10 p c rest ha hand hamp hb hc hq hn' =>
    rename_i ih
    have hsplits : stream.Splits p (c :: (splitWord rest).1 ++ (splitWord rest).2) n := by
      refine TokenStream.splits_token h hn ?_ ih (fun before behind hcut hword => ?_) ?_
      · rw [Lexeme.spellings, String.toList_ofList]
        exact List.mem_singleton.2 rfl
      · have hsplit := splitWord_cut hcut (hword (endsWord_splitWord rest))
        have hdash : c = '-' → ((splitWord rest).1 ++ before).head? ≠ some '>' := by
          intro hc hhead
          obtain ⟨more, hmore⟩ := List.head?_eq_some_iff.1 (head?_of_splitWord hcut hhead)
          exact ha more hc hmore
        rw [List.cons_append, tokenizeFrom_splitWord hdash hamp hb hc hq hn', hsplit]
      · intro hw
        rw [List.cons_append, splitWord_append] at hw
        exact absurd hw (not_endsWord_of_read ha hamp hb hq hn')
    rw [List.cons_append, splitWord_append] at hsplits
    exact hsplits

/-- A part of the tokens of a stream, up to one of them. -/
theorem TokenStream.place_take {stream : TokenStream} {n m : Nat} (h : n < m)
    (hm : m ≤ stream.tokens.length) (finish : Position) :
    (⟨stream.tokens.take m, finish⟩ : TokenStream).place n = stream.place n := by
  have hn : n < stream.tokens.length := Nat.lt_of_lt_of_le h hm
  rw [place, place, List.getElem?_take_of_lt h, List.getElem?_eq_getElem hn]
  rfl

/-- **No two tokens stand at one place**, and none where the text ends. -/
theorem place_ne_of_lt {p : Position} {s : List Char} {stream : TokenStream}
    (h : tokenizeFrom p s = .ok stream) {n m : Nat} (hlt : n < m)
    (hm : m ≤ stream.tokens.length) : stream.place n ≠ stream.place m := by
  obtain ⟨before, behind, -, hcut, -⟩ := tokenizeFrom_splits h hm
  have hlength : (stream.tokens.take m).length = m := List.length_take_of_le hm
  -- what is in front of the later token is cut again, in front of the earlier one
  obtain ⟨before', between, rfl, hcut', -⟩ := tokenizeFrom_splits hcut.tokens
    (hlt.le.trans hlength.ge)
  rw [← TokenStream.place_take hlt hm (p.after (before' ++ between)), hcut'.place, hcut.place,
    Position.after_append]
  cases between with
  | cons c more => exact (Position.before_after _ c more).ne
  | nil =>
    have hsame := hcut'.tokens.symm.trans (List.append_nil before' ▸ hcut.tokens)
    have htake := congrArg List.length (congrArg TokenStream.tokens (Except.ok.inj hsame))
    dsimp only at htake
    rw [List.length_take, hlength] at htake
    omega

end Config
end ProxyPlane
