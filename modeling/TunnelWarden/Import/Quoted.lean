import TunnelWarden.Import.Words

/-!
# Quoted words

Within double quotes every other character goes to the word: blanks, a
`#`, a single quote, an `=`. So a list of words is read back from the
line that quotes each of them, unless an `=` at its front parts the
first word, and a comment behind the line is not read.
-/

namespace TunnelWarden

namespace Import

/-- A word in double quotes. -/
def quoted (word : String) : String := "\"" ++ word ++ "\""

/-- Further words in double quotes, each behind its blanks. -/
def quotedRest : List (String × String) → String
  | [] => ""
  | (blanks, word) :: rest => blanks ++ quoted word ++ quotedRest rest

/-- A line of quoted words: the first, and the further ones with the
blanks before each. -/
def quotedLine (first : String) (rest : List (String × String)) : String :=
  quoted first ++ quotedRest rest

/-- A word that is read back from its quotes: it is not empty and has no
double quote. -/
structure QuotableWord (word : String) : Prop where
  nonempty : word ≠ ""
  unquoted : '"' ∉ word.toList

/-- The words of a line that are read back: blanks part them, and no `=`
parts a keyword from them. -/
structure QuotableWords (first : String) (rest : List (String × String)) : Prop where
  first_word : QuotableWord first
  rest_words : ∀ p ∈ rest, QuotableWord p.2
  blanks : ∀ p ∈ rest, BlankText p.1 ∧ p.1 ≠ ""
  first_plain : '=' ∉ first.toList
  second_plain : (rest.map Prod.snd).head? ≠ some "="

variable {words : List String} {word cs tail : List Char} {w first blanks text : String}
variable {rest : List (String × String)}

/-! ## The scan -/

theorem isQuote_double : isQuote '"' = true := rfl

/-- Within double quotes a character goes to the word. -/
theorem scanWords_inside_char {c : Char} (hc : c ≠ '"') :
    scanWords words word (some '"') (c :: tail) =
      scanWords words (word ++ [c]) (some '"') tail := by
  have hopen : ¬ ((some '"' : Option Char) = none) := by simp
  have hclose : ¬ ((some '"' : Option Char) = some c) := fun h => hc (Option.some.inj h).symm
  have hblank : ¬ (isWhitespace c = true ∧ (some '"' : Option Char) = none) := fun h => hopen h.2
  rw [scanWords, if_neg fun h => hopen h.1, if_neg hclose, if_neg hopen, if_neg hblank, ite_self]

/-- And so do all of them. -/
theorem scanWords_inside (h : '"' ∉ cs) :
    scanWords words word (some '"') (cs ++ tail) =
      scanWords words (word ++ cs) (some '"') tail := by
  induction cs generalizing word with
  | nil => rw [List.nil_append, List.append_nil]
  | cons c cs ih =>
      have hc : c ≠ '"' := by
        rintro rfl
        exact h (by simp)
      have hcs : '"' ∉ cs := fun hmem => h (List.mem_cons_of_mem c hmem)
      rw [List.cons_append, scanWords_inside_char hc, ih hcs, List.append_assoc,
        List.singleton_append]

/-- A double quote opens, and the next one closes. -/
theorem scanWords_open :
    scanWords words word none ('"' :: tail) = scanWords words word (some '"') tail := by
  rw [scanWords, if_neg (by decide), if_pos isQuote_double, if_neg (by decide), if_pos rfl]

theorem scanWords_close :
    scanWords words word (some '"') ('"' :: tail) = scanWords words word none tail := by
  rw [scanWords, if_neg (by decide), if_pos isQuote_double, if_pos rfl]

theorem toList_quoted (w : String) : (quoted w).toList = '"' :: (w.toList ++ ['"']) := by
  simp [quoted]

namespace QuotableWord

theorem toList_ne_nil (h : QuotableWord w) : w.toList ≠ [] := by
  intro hnil
  exact h.nonempty (String.toList_inj.1 hnil)

/-- What stands in quotes is the word so far. -/
theorem scanWords_quoted (h : QuotableWord w) :
    scanWords words [] none ((quoted w).toList ++ tail) = scanWords words w.toList none tail := by
  rw [toList_quoted, List.cons_append, List.append_assoc, scanWords_open,
    scanWords_inside h.unquoted, List.singleton_append, scanWords_close, List.nil_append]

/-- A quoted word ends as the word. -/
theorem endWord_toList (h : QuotableWord w) : endWord words w.toList = words ++ [w] := by
  rw [endWord, if_neg h.toList_ne_nil, String.ofList_toList]

end QuotableWord

/-- What ends the line: nothing, or a comment behind blanks. -/
def EndsLine (tail : List Char) : Prop :=
  ∀ words word, scanWords words word none tail = endWord words word

theorem endsLine_nil : EndsLine [] := by
  intro words word
  rw [scanWords]

/-- A comment is not read, whatever its text. -/
theorem endsLine_hash : EndsLine ('#' :: tail) := by
  intro words word
  rw [scanWords, if_pos ⟨rfl, rfl⟩]

theorem endWord_nil : endWord words [] = words := if_pos rfl

/-- Blanks before it change nothing. -/
theorem endsLine_comment (hblanks : BlankText blanks) :
    EndsLine (blanks.toList ++ '#' :: tail) := by
  intro words word
  by_cases hnil : blanks.toList = []
  · rw [hnil, List.nil_append]
    exact endsLine_hash words word
  · have hscan : scanWords words word none (blanks.toList ++ '#' :: tail) =
        scanWords (endWord words word) [] none ('#' :: tail) :=
      scanWords_blanks hblanks hnil
    rw [hscan, endsLine_hash, endWord_nil]

/-- Further quoted words are read one by one; `word` is the one before
them. -/
theorem scanWords_quotedRest (hword : QuotableWord w) (hrest : ∀ p ∈ rest, QuotableWord p.2)
    (hblanks : ∀ p ∈ rest, BlankText p.1 ∧ p.1 ≠ "") (hend : EndsLine tail) :
    scanWords words w.toList none ((quotedRest rest).toList ++ tail) =
      words ++ w :: rest.map Prod.snd := by
  induction rest generalizing words w with
  | nil =>
      have hline : (quotedRest []).toList ++ tail = tail := by simp [quotedRest]
      rw [hline, hend, hword.endWord_toList, List.map_nil]
  | cons p rest ih =>
      obtain ⟨hp, hps⟩ := List.forall_mem_cons.1 hrest
      obtain ⟨hb, hbs⟩ := List.forall_mem_cons.1 hblanks
      have hline : (quotedRest (p :: rest)).toList ++ tail =
          p.1.toList ++ ((quoted p.2).toList ++ ((quotedRest rest).toList ++ tail)) := by
        simp [quotedRest]
      have hne : p.1.toList ≠ [] := fun hnil => hb.2 (String.toList_inj.1 hnil)
      rw [hline, scanWords_blanks hb.1 hne, hword.endWord_toList, hp.scanWords_quoted,
        ih hp hps hbs, List.map_cons, List.append_assoc, List.singleton_append]

/-! ## The keyword -/

theorem splitOnce_eq_none {c : Char} (h : c ∉ cs) : splitOnce c cs = none := by
  induction cs with
  | nil => rfl
  | cons d cs ih =>
      have hd : d ≠ c := by
        rintro rfl
        exact h (by simp)
      rw [splitOnce, if_neg hd, ih fun hmem => h (List.mem_cons_of_mem d hmem)]
      rfl

/-- Without an `=` at its front the list stays as it is. -/
theorem splitKeyword_eq (hfirst : '=' ∉ first.toList) (hsecond : words.head? ≠ some "=") :
    splitKeyword (first :: words) = first :: words := by
  rw [splitKeyword, splitOnce_eq_none hfirst]
  exact if_neg hsecond

/-! ## The line -/

/-- The line is read as its words, whatever ends it. -/
theorem QuotableWords.splitKeyword_scanWords (h : QuotableWords first rest)
    (hend : EndsLine tail) :
    splitKeyword (scanWords [] [] none ((quotedLine first rest).toList ++ tail)) =
      first :: rest.map Prod.snd := by
  have hline : (quotedLine first rest).toList ++ tail =
      (quoted first).toList ++ ((quotedRest rest).toList ++ tail) := by
    simp [quotedLine]
  have hscan : scanWords [] [] none ((quotedLine first rest).toList ++ tail) =
      [] ++ first :: rest.map Prod.snd := by
    rw [hline, h.first_word.scanWords_quoted]
    exact scanWords_quotedRest h.first_word h.rest_words h.blanks hend
  rw [hscan, List.nil_append]
  exact splitKeyword_eq h.first_plain h.second_plain

/-- **Quoted words are read back**, whatever blanks part them, and a
comment behind the line does not change them. A word may hold a line
break as well. -/
theorem splitWords_quotedLine (h : QuotableWords first rest) :
    splitWords (quotedLine first rest) = first :: rest.map Prod.snd ∧
      ∀ blanks text : String, BlankText blanks →
        splitWords (quotedLine first rest ++ blanks ++ "#" ++ text) =
          splitWords (quotedLine first rest) := by
  have hplain : splitWords (quotedLine first rest) = first :: rest.map Prod.snd := by
    have hread := h.splitKeyword_scanWords endsLine_nil
    rwa [List.append_nil] at hread
  refine ⟨hplain, fun blanks text hblanks => ?_⟩
  have hline : (quotedLine first rest ++ blanks ++ "#" ++ text).toList =
      (quotedLine first rest).toList ++ (blanks.toList ++ '#' :: text.toList) := by
    simp
  rw [hplain, splitWords, hline]
  exact h.splitKeyword_scanWords (endsLine_comment hblanks)

theorem splitWords_quotedLine_key :
    splitWords (quotedLine "IdentityFile" [(" ", "~/my key"), ("\t", "# 'a' = b")]) =
        ["IdentityFile", "~/my key", "# 'a' = b"] ∧
      ∀ blanks text : String, BlankText blanks →
        splitWords (quotedLine "IdentityFile" [(" ", "~/my key"), ("\t", "# 'a' = b")] ++
            blanks ++ "#" ++ text) =
          splitWords (quotedLine "IdentityFile" [(" ", "~/my key"), ("\t", "# 'a' = b")]) :=
  splitWords_quotedLine
    { first_word := ⟨by decide, by decide⟩
      rest_words := by
        simp only [List.forall_mem_cons]
        exact ⟨⟨by decide, by decide⟩, ⟨by decide, by decide⟩, List.forall_mem_nil _⟩
      blanks := by
        simp only [List.forall_mem_cons]
        exact ⟨⟨List.all_eq_true.1 (by decide), by decide⟩,
          ⟨List.all_eq_true.1 (by decide), by decide⟩, List.forall_mem_nil _⟩
      first_plain := by decide
      second_plain := by decide }

end Import

end TunnelWarden
