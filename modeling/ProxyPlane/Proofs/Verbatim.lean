import ProxyPlane.Proofs.Document

/-!
# Names and links as tokens

The names of groups and the tags of nodes are checked by the store before any configuration is
written, and so are links.  What the store lets in is read back from a configuration as one token
with the same text: a name as a word, without quotes, and a link as a text in quotes.  The signs of
names include `!`, `#` and `-`, each of which begins another token in some places; none of them
begins a name, and no name goes on with `>` behind a `-`.

A reader that has taken the token goes on right behind it.  So this is an equation for every text
that begins with a name or a link, whether or not the rest of it can be read.

## What is here

* `Heads` — a text is one token in front of anything that ends a word.
* `heads_word`, `heads_quoted` — words, and links in their quotes.
* `IsToken` — the same, alone and in front of what a configuration has behind names and links.
* `identifiers_and_links_are_tokens` — what the store lets in is such a text.
-/

set_option autoImplicit false
namespace ProxyPlane
namespace Config

/-- A text is read as one token in front of anything that ends a word: the reading goes on right
behind the text. -/
def Heads (text : String) (l : Lexeme) : Prop :=
  ∀ ⦃s⦄, Stops s → ∀ p, tokenizeFrom p (text.toList ++ s) = do
    return (← tokenizeFrom (p.after text.toList) s).cons ⟨l, p⟩

theorem heads_word {text : String} (h : (Lexeme.word text).Written) : Heads text (.word text) := by
  intro s hs p
  rw [tokenizeFrom_word h hs, String.ofList_toList]

theorem quoteFor_toList (text : String) :
    ∃ q, (quoteFor text).toList = [q] ∧ (q = '\'' ∨ q = '"') ∧
      ((Lexeme.quoted text).Written → q ∉ text.toList) := by
  rw [quoteFor]
  split
  · next hsingle =>
    refine ⟨'"', rfl, .inr rfl, fun hw => ?_⟩
    exact (hw : _ ∨ _).resolve_left (not_not_intro (List.contains_iff_mem.1 hsingle))
  · next hsingle =>
    exact ⟨'\'', rfl, .inl rfl, fun _ hmem => hsingle (List.contains_iff_mem.2 hmem)⟩

/-- A text stands in quotes that it does not hold. -/
theorem heads_quoted {text : String} (h : (Lexeme.quoted text).Written) :
    Heads (Scalar.inQuotes text).render (.quoted text) := by
  obtain ⟨q, hquote, hq, hfree⟩ := quoteFor_toList text
  have hlist : (Scalar.inQuotes text).render.toList = q :: text.toList ++ [q] := by
    change (quoteFor text ++ text ++ quoteFor text).toList = _
    rw [String.toList_append, String.toList_append, hquote, List.singleton_append]
  intro s _ p
  rw [hlist, tokenizeFrom_quoted hq (hfree h), String.ofList_toList]

/-- What a configuration has behind names and links. -/
def followers : List String := [":", ",", ")", " \x7b", "\n"]

theorem stops_followers {follower : String} (h : follower ∈ followers) (rest : List Char) :
    Stops (follower.toList ++ rest) := by
  simp only [followers, List.mem_cons, List.not_mem_nil, or_false] at h
  obtain rfl | rfl | rfl | rfl | rfl := h <;> exact stops_cons _ (by decide)

/-- A text is read as one token, by itself and in front of each of the followers and anything more.
-/
structure IsToken (text : String) (l : Lexeme) : Prop where
  alone : ∀ p, tokenizeFrom p text.toList = .ok ⟨[⟨l, p⟩], p.after text.toList⟩
  followed : ∀ follower ∈ followers, ∀ rest p,
    tokenizeFrom p (text.toList ++ (follower.toList ++ rest)) = do
      return (← tokenizeFrom (p.after text.toList) (follower.toList ++ rest)).cons ⟨l, p⟩

theorem Heads.isToken {text : String} {l : Lexeme} (h : Heads text l) : IsToken text l where
  alone p := by
    have hend : Stops [] := nofun
    have htext := h hend p
    rw [List.append_nil] at htext
    rw [htext, tokenizeFrom.eq_def]
    rfl
  followed follower hf rest p := h (stops_followers hf rest) p

end Config

open Config

/-- **What the store lets in as a name or a link is one token of a configuration.**  A name needs no
quotes and is a word; a link in quotes is a text in quotes.  Both are read with the text they have,
by themselves and in front of what a configuration has behind them. -/
theorem identifiers_and_links_are_tokens :
    (∀ field name, checkIdentifier field name = .ok () →
      needsQuotes name.toList = false ∧ IsToken name (.word name)) ∧
    ∀ link endpoint, readLink link = .ok endpoint →
      IsToken (Scalar.inQuotes link).render (.quoted link) := by
  refine ⟨fun field name h => ?_, fun link endpoint h => ?_⟩
  · have hword := word_of_isIdentifier (isIdentifier_of_check h)
    exact ⟨IsWord.needsQuotes hword, (heads_word hword).isToken⟩
  · exact (heads_quoted (quoted_of_readLink h)).isToken

/-- A name with all the signs that mean something elsewhere, and a link with a quote in it. -/
theorem marked_names_and_links_are_tokens :
    checkIdentifier .tag "_-!#%=-" = .ok () ∧ IsToken "_-!#%=-" (.word "_-!#%=-") ∧
      (readLink "socks5://h.example:1080#it's").isOk = true ∧
      IsToken "\"socks5://h.example:1080#it's\"" (.quoted "socks5://h.example:1080#it's") := by
  have hname : checkIdentifier .tag "_-!#%=-" = .ok () := by decide
  have hlink : (readLink "socks5://h.example:1080#it's").isOk = true := by decide +kernel
  refine ⟨hname, (identifiers_and_links_are_tokens.1 _ _ hname).2, hlink, ?_⟩
  cases hread : readLink "socks5://h.example:1080#it's" with
  | error e =>
    rw [hread] at hlink
    cases hlink
  | ok endpoint => exact identifiers_and_links_are_tokens.2 _ _ hread

end ProxyPlane
