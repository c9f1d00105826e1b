import TunnelWarden.Import.Model.Preview

/-!
# A keyword and its value

OpenSSH parts a keyword from its value by blanks, by an `=`, or by both.
A text of plain characters is read as part of one word and a blank ends
the word, so a line of two words and an `=` is one, two or three words,
as there are blanks before and behind the `=`. `splitKeyword` finds the
value where there are blanks on both sides or on neither.
-/

namespace TunnelWarden

namespace Import

/-- A character that neither ends a word nor parts one. -/
def plainChar (c : Char) : Bool := !isWhitespace c && !isQuote c && c != '#' && c != '='

/-- A keyword or a value without blanks, quotes, `#` and `=`. -/
structure PlainWord (s : String) : Prop where
  nonempty : s ≠ ""
  plain : ∀ c ∈ s.toList, plainChar c = true

/-- Nothing but blanks. -/
def BlankText (s : String) : Prop := ∀ c ∈ s.toList, isWhitespace c = true

variable {words : List String} {word cs rest : List Char} {k v a b : String}

/-! ## The scan -/

/-- A character of a word, outside quotes. -/
theorem scanWords_char {c : Char} (hw : isWhitespace c = false) (hq : isQuote c = false)
    (hc : c ≠ '#') :
    scanWords words word none (c :: rest) = scanWords words (word ++ [c]) none rest := by
  rw [scanWords, if_neg (by simp [hc]), if_neg (by simp [hq]), if_neg (by simp [hw])]

/-- Plain characters go to the word. -/
theorem scanWords_plain (h : ∀ c ∈ cs, plainChar c = true) :
    scanWords words word none (cs ++ rest) = scanWords words (word ++ cs) none rest := by
  induction cs generalizing word with
  | nil => rw [List.nil_append, List.append_nil]
  | cons c cs ih =>
      have hc : plainChar c = true := h c (by simp)
      simp only [plainChar, Bool.and_eq_true, Bool.not_eq_true', bne_iff_ne] at hc
      rw [List.cons_append, scanWords_char hc.1.1.1 hc.1.1.2 hc.1.2,
        ih fun d hd => h d (by simp [hd]), List.append_assoc, List.singleton_append]

/-- So does an `=`. -/
theorem scanWords_equals :
    scanWords words word none ('=' :: rest) = scanWords words (word ++ ['=']) none rest :=
  scanWords_char (by decide) (by decide) (by decide)

/-- A blank ends the word. -/
theorem scanWords_blank {c : Char} (hc : isWhitespace c = true) :
    scanWords words word none (c :: rest) = scanWords (endWord words word) [] none rest := by
  have hplain : isQuote c = false ∧ c ≠ '#' := by
    constructor
    · by_contra hq
      simp only [isQuote, Bool.or_eq_true, beq_iff_eq, Bool.not_eq_false] at hq
      rcases hq with hq | hq <;> simp [isWhitespace, hq] at hc
    · rintro rfl
      simp [isWhitespace] at hc
  rw [scanWords, if_neg (by simp [hplain.2]), if_neg (by simp [hplain.1]), if_pos ⟨hc, rfl⟩]

/-- Further blanks change nothing. -/
theorem scanWords_blanks_nil (h : ∀ c ∈ cs, isWhitespace c = true) :
    scanWords words [] none (cs ++ rest) = scanWords words [] none rest := by
  induction cs with
  | nil => rw [List.nil_append]
  | cons c cs ih =>
      rw [List.cons_append, scanWords_blank (h c (by simp))]
      exact ih fun d hd => h d (by simp [hd])

/-- Blanks end the word, if there are any. -/
theorem scanWords_blanks (h : ∀ c ∈ cs, isWhitespace c = true) (hne : cs ≠ []) :
    scanWords words word none (cs ++ rest) = scanWords (endWord words word) [] none rest := by
  obtain ⟨c, cs, rfl⟩ := List.exists_cons_of_ne_nil hne
  rw [List.cons_append, scanWords_blank (h c (by simp))]
  exact scanWords_blanks_nil fun d hd => h d (by simp [hd])

/-! ## The keyword -/

theorem splitOnce_plain (h : ∀ c ∈ cs, plainChar c = true) : splitOnce '=' cs = none := by
  induction cs with
  | nil => rfl
  | cons c cs ih =>
      have hc : c ≠ '=' := by
        rintro rfl
        exact absurd (h '=' (by simp)) (by decide)
      rw [splitOnce, if_neg hc, ih fun d hd => h d (by simp [hd])]
      rfl

theorem splitOnce_append (h : ∀ c ∈ cs, plainChar c = true) :
    splitOnce '=' (cs ++ '=' :: rest) = some (cs, rest) := by
  induction cs with
  | nil => simp [splitOnce]
  | cons c cs ih =>
      have hc : c ≠ '=' := by
        rintro rfl
        exact absurd (h '=' (by simp)) (by decide)
      rw [List.cons_append, splitOnce, if_neg hc, ih fun d hd => h d (by simp [hd])]
      rfl

namespace PlainWord

theorem toList_ne_nil (h : PlainWord k) : k.toList ≠ [] := by
  intro hnil
  exact h.nonempty (String.toList_inj.1 hnil)

/-- At the end of the line it is part of the last word. -/
theorem scanWords_last (h : PlainWord v) :
    scanWords words word none v.toList = words ++ [String.ofList (word ++ v.toList)] := by
  have hne : word ++ v.toList ≠ [] := by
    intro hnil
    exact h.toList_ne_nil (List.append_eq_nil_iff.1 hnil).2
  have hscan : scanWords words word none (v.toList ++ []) =
      scanWords words (word ++ v.toList) none [] :=
    scanWords_plain h.plain
  rw [List.append_nil] at hscan
  rw [hscan, scanWords, endWord, if_neg hne]

theorem ne_equals (h : PlainWord v) : v ≠ "=" := by
  rintro rfl
  have hplain := h.plain '=' (by simp)
  exact absurd hplain (by decide)

end PlainWord

/-- A keyword without an `=` is parted from its value by the next word,
if that is an `=`. -/
theorem splitKeyword_plain (hk : PlainWord k) :
    splitKeyword (k :: words) = if words.head? = some "=" then k :: words.tail else k :: words := by
  rw [splitKeyword, splitOnce_plain hk.plain]

/-! ## The four spellings -/

/-- A blank parts a keyword from its value. -/
theorem splitWords_blank (hk : PlainWord k) (hv : PlainWord v) :
    splitWords (k ++ " " ++ v) = [k, v] := by
  have hline : (k ++ " " ++ v).toList = k.toList ++ ([' '] ++ v.toList) := by simp
  have hscan : scanWords [] [] none (k ++ " " ++ v).toList = [k, v] := by
    rw [hline, scanWords_plain hk.plain, scanWords_blanks (List.forall_mem_singleton.2 rfl) (by simp),
      hv.scanWords_last]
    simp [endWord, hk.toList_ne_nil]
  have hne : v ≠ "=" := hv.ne_equals
  rw [splitWords, hscan, splitKeyword_plain hk]
  exact if_neg fun h => hne (Option.some.inj h)

/-- Without blanks the line is one word, which its first `=` parts. -/
theorem splitWords_joined (hk : PlainWord k) (hv : PlainWord v) :
    splitWords (k ++ "" ++ "=" ++ "" ++ v) = [k, v] := by
  have hline : (k ++ "" ++ "=" ++ "" ++ v).toList = k.toList ++ '=' :: v.toList := by simp
  have hscan : scanWords [] [] none (k ++ "" ++ "=" ++ "" ++ v).toList =
      [String.ofList (k.toList ++ '=' :: v.toList)] := by
    rw [hline, scanWords_plain hk.plain, scanWords_equals, hv.scanWords_last]
    simp
  rw [splitWords, hscan, splitKeyword, String.toList_ofList, splitOnce_append hk.plain]
  simp

/-- With blanks on both sides the `=` is a word of its own. -/
theorem splitWords_apart (hk : PlainWord k) (hv : PlainWord v) (ha : BlankText a)
    (hb : BlankText b) (hane : a.toList ≠ []) (hbne : b.toList ≠ []) :
    splitWords (k ++ a ++ "=" ++ b ++ v) = [k, v] := by
  have hline : (k ++ a ++ "=" ++ b ++ v).toList =
      k.toList ++ (a.toList ++ '=' :: (b.toList ++ v.toList)) := by
    simp
  have hscan : scanWords [] [] none (k ++ a ++ "=" ++ b ++ v).toList = [k, "=", v] := by
    rw [hline, scanWords_plain hk.plain, scanWords_blanks ha hane, scanWords_equals,
      scanWords_blanks hb hbne, hv.scanWords_last]
    simp [endWord, hk.toList_ne_nil]
  rw [splitWords, hscan, splitKeyword_plain hk]
  exact if_pos rfl

/-- With blanks before it only, the `=` stays with the value. -/
theorem splitWords_before (hk : PlainWord k) (hv : PlainWord v) (ha : BlankText a)
    (hane : a.toList ≠ []) :
    splitWords (k ++ a ++ "=" ++ "" ++ v) = [k, String.ofList ('=' :: v.toList)] := by
  have hline : (k ++ a ++ "=" ++ "" ++ v).toList = k.toList ++ (a.toList ++ '=' :: v.toList) := by
    simp
  have hscan : scanWords [] [] none (k ++ a ++ "=" ++ "" ++ v).toList =
      [k, String.ofList ('=' :: v.toList)] := by
    rw [hline, scanWords_plain hk.plain, scanWords_blanks ha hane, scanWords_equals,
      hv.scanWords_last]
    simp [endWord, hk.toList_ne_nil]
  have hne : String.ofList ('=' :: v.toList) ≠ "=" := by
    intro heq
    have hlist := congrArg String.toList heq
    simp only [String.toList_ofList] at hlist
    exact hv.toList_ne_nil (List.cons.inj hlist).2
  rw [splitWords, hscan, splitKeyword_plain hk]
  exact if_neg fun h => hne (Option.some.inj h)

/-- With blanks behind it only, the value the `=` parts off is empty. -/
theorem splitWords_behind (hk : PlainWord k) (hv : PlainWord v) (hb : BlankText b)
    (hbne : b.toList ≠ []) : splitWords (k ++ "" ++ "=" ++ b ++ v) = [k, "", v] := by
  have hline : (k ++ "" ++ "=" ++ b ++ v).toList = k.toList ++ '=' :: (b.toList ++ v.toList) := by
    simp
  have hscan : scanWords [] [] none (k ++ "" ++ "=" ++ b ++ v).toList =
      [String.ofList (k.toList ++ ['=']), v] := by
    rw [hline, scanWords_plain hk.plain, scanWords_equals, scanWords_blanks hb hbne,
      hv.scanWords_last]
    simp [endWord]
  rw [splitWords, hscan, splitKeyword, String.toList_ofList, splitOnce_append hk.plain]
  simp

/-- **When an `=` parts a keyword from its value.** The line is read as
the keyword and the value, and so as it is read with a blank between
them, where there are blanks on both sides of the `=` or on neither. -/
theorem splitWords_equals_iff (hk : PlainWord k) (hv : PlainWord v) (ha : BlankText a)
    (hb : BlankText b) :
    (splitWords (k ++ a ++ "=" ++ b ++ v) = [k, v] ∧
        splitWords (k ++ a ++ "=" ++ b ++ v) = splitWords (k ++ " " ++ v) ∧
        ∀ (s : Parsed) (number : ℕ),
          parseWords s number (splitWords (k ++ a ++ "=" ++ b ++ v)) =
            parseWords s number (splitWords (k ++ " " ++ v))) ↔
      (a = "" ↔ b = "") := by
  have hiff : splitWords (k ++ a ++ "=" ++ b ++ v) = [k, v] ↔ (a = "" ↔ b = "") := by
    have hnil {s : String} (hs : s ≠ "") : s.toList ≠ [] := fun h => hs (String.toList_inj.1 h)
    by_cases ha₀ : a = "" <;> by_cases hb₀ : b = ""
    · subst ha₀ hb₀
      simp only [splitWords_joined hk hv]
    · subst ha₀
      rw [splitWords_behind hk hv hb (hnil hb₀)]
      simp [hb₀]
    · subst hb₀
      rw [splitWords_before hk hv ha (hnil ha₀)]
      simp [ha₀]
    · simp only [splitWords_apart hk hv ha hb (hnil ha₀) (hnil hb₀), ha₀, hb₀]
  rw [← hiff]
  constructor
  · exact fun h => h.1
  · intro h
    rw [splitWords_blank hk hv, h]
    exact ⟨rfl, rfl, fun _ _ => rfl⟩

theorem splitWords_equals_iff_port :
    (splitWords ("Port" ++ " " ++ "=" ++ " " ++ "2222") = ["Port", "2222"] ∧
        splitWords ("Port" ++ " " ++ "=" ++ " " ++ "2222") = splitWords ("Port" ++ " " ++ "2222") ∧
        ∀ (s : Parsed) (number : ℕ),
          parseWords s number (splitWords ("Port" ++ " " ++ "=" ++ " " ++ "2222")) =
            parseWords s number (splitWords ("Port" ++ " " ++ "2222"))) ↔
      (" " = "" ↔ " " = "") :=
  splitWords_equals_iff ⟨by decide, List.all_eq_true.1 (by decide)⟩
    ⟨by decide, List.all_eq_true.1 (by decide)⟩
    (List.all_eq_true.1 (by decide)) (List.all_eq_true.1 (by decide))

/-- A port with a blank before the `=` only is read with the `=`. -/
theorem splitWords_port_spelled :
    ¬ ∀ k v a b : String, PlainWord k → PlainWord v → BlankText a → BlankText b →
      splitWords (k ++ a ++ "=" ++ b ++ v) = [k, v] := by
  intro h
  have hport := h "Port" "2222" " " "" ⟨by decide, List.all_eq_true.1 (by decide)⟩
    ⟨by decide, List.all_eq_true.1 (by decide)⟩
    (List.all_eq_true.1 (by decide)) (List.all_eq_true.1 (by decide))
  exact absurd hport (by decide)

end Import

end TunnelWarden
