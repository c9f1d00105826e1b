import TunnelWarden.Common.Net

/-!
# Reading an address at the front of a text

A reader that looks at one character more than it takes can be misled by
what follows. `Extends` says that it is not: what was read from the text
alone is read from the longer text too. An IPv4 address extends over
anything that starts with a colon, which is how a port is attached to
it.
-/

namespace TunnelWarden

/-- What the reader reads from a text alone it reads with `tail` behind
it. -/
def Reader.Extends {α : Type} (r : Reader α) (tail : List Char) : Prop :=
  ∀ cs a rest, r cs = some (a, rest) → r (cs ++ tail) = some (a, rest ++ tail)

/-- No number in this radix goes on into the tail. -/
def StopsDigits (radix : ℕ) (tail : List Char) : Prop :=
  ∀ c cs, tail = c :: cs → toDigit radix c = none

variable {α : Type} {radix value count : ℕ} {tail cs : List Char}

theorem readDigits_append (h : StopsDigits radix tail) :
    readDigits radix value count (cs ++ tail) =
      ((readDigits radix value count cs).1, (readDigits radix value count cs).2.1,
        (readDigits radix value count cs).2.2 ++ tail) := by
  induction cs generalizing value count with
  | nil =>
      cases tail with
      | nil => rfl
      | cons c cs =>
          have hc := h c cs rfl
          simp only [List.nil_append, readDigits, hc]
  | cons c cs ih =>
      rw [List.cons_append, readDigits, readDigits]
      cases hc : toDigit radix c with
      | none => rfl
      | some d => exact ih

/-- **When a number is read**: the run of digits passes the four
checks. -/
theorem readNumber_eq_some {maxDigits : Option ℕ} {allowZero : Bool} {bound a : ℕ}
    {rest : List Char} :
    readNumber radix maxDigits allowZero bound cs = some (a, rest) ↔
      ∃ n, readDigits radix 0 0 cs = (a, n, rest) ∧ n ≠ 0 ∧ maxDigits.any (· < n) = false ∧
        (!allowZero && cs.head? == some '0' && 1 < n) = false ∧ a < bound := by
  unfold readNumber
  rcases readDigits radix 0 0 cs with ⟨v, n, r⟩
  dsimp only
  constructor
  · intro h
    split_ifs at h with hn hmax hzero hbound
    obtain ⟨rfl, rfl⟩ := Prod.mk.inj (Option.some.inj h)
    exact ⟨n, rfl, hn, by simpa using hmax, by simpa using hzero, Nat.lt_of_not_le hbound⟩
  · rintro ⟨n', heq, hn, hmax, hzero, hbound⟩
    obtain ⟨rfl, rfl, rfl⟩ : v = a ∧ n = n' ∧ r = rest := by simpa using heq
    rw [if_neg hn, if_neg (by simp [hmax]), if_neg (by rw [hzero]; simp),
      if_neg (Nat.not_le_of_lt hbound)]

theorem readNumber_extends {maxDigits : Option ℕ} {allowZero : Bool} {bound : ℕ}
    (h : StopsDigits radix tail) : (readNumber radix maxDigits allowZero bound).Extends tail := by
  intro cs a rest hread
  obtain ⟨n, hdigits, hn, hmax, hzero, hbound⟩ := readNumber_eq_some.1 hread
  have hne : cs ≠ [] := by
    rintro rfl
    exact hn (Prod.mk.inj (Prod.mk.inj hdigits).2).1.symm
  refine readNumber_eq_some.2 ⟨n, ?_, hn, hmax, ?_, hbound⟩
  · rw [readDigits_append h, hdigits]
  · rw [List.head?_append_of_ne_nil _ hne]
    exact hzero

theorem readGivenChar_extends {c : Char} : (readGivenChar c).Extends tail := by
  intro cs a rest hread
  cases cs with
  | nil => simp [readGivenChar] at hread
  | cons x cs =>
      rw [List.cons_append]
      simp only [readGivenChar] at hread ⊢
      split_ifs at hread ⊢
      obtain ⟨rfl, rfl⟩ := Prod.mk.inj (Option.some.inj hread)
      rfl

theorem readSeparator_extends {sep : Char} {index : ℕ} {inner : Reader α}
    (h : inner.Extends tail) : (readSeparator sep index inner).Extends tail := by
  intro cs a rest hread
  unfold readSeparator at hread ⊢
  split_ifs at hread ⊢
  · exact h cs a rest hread
  · obtain ⟨⟨u, mid⟩, hchar, hinner⟩ := Option.bind_eq_some_iff.1 hread
    rw [readGivenChar_extends cs u mid hchar]
    exact h mid a rest hinner

/-- **An IPv4 address is read as it is**, whatever the text goes on
with, as long as that is no digit. -/
theorem readIpv4_extends (h : StopsDigits 10 tail) : readIpv4.Extends tail := by
  have hoctet (index : ℕ) : (readOctet index).Extends tail :=
    readSeparator_extends (readNumber_extends h)
  intro cs a rest hread
  unfold readIpv4 at hread ⊢
  simp only [Option.bind_eq_bind, Option.bind_eq_some_iff] at hread
  obtain ⟨⟨o₀, cs₀⟩, h₀, ⟨o₁, cs₁⟩, h₁, ⟨o₂, cs₂⟩, h₂, ⟨o₃, cs₃⟩, h₃, hend⟩ := hread
  simp only [Option.bind_eq_bind, hoctet _ _ _ _ h₀, hoctet _ _ _ _ h₁, hoctet _ _ _ _ h₂,
    hoctet _ _ _ _ h₃, Option.bind_some]
  obtain ⟨rfl, rfl⟩ := Prod.mk.inj (Option.some.inj hend)
  rfl

/-! ## Ports -/

theorem toDigit_of_isDigit {c : Char} (h : c.isDigit = true) :
    toDigit 10 c = some (c.toNat - '0'.toNat) := by
  have hbounds : '0' ≤ c ∧ c ≤ '9' := by
    simpa [Char.isDigit, Char.le_def] using h
  have hlt : c.toNat - '0'.toNat < 10 := by
    have hle : c.toNat ≤ '9'.toNat := hbounds.2
    have hnine : '9'.toNat = '0'.toNat + 9 := rfl
    omega
  rw [toDigit, if_pos hbounds]
  exact Option.filter_some_pos (by simpa using hlt)

theorem readDigits_of_isDigit (h : ∀ c ∈ cs, c.isDigit = true) :
    readDigits 10 value count cs = (Nat.ofDigitChars 10 cs value, count + cs.length, []) := by
  induction cs generalizing value count with
  | nil => rfl
  | cons c cs ih =>
      obtain ⟨hc, hcs⟩ := List.forall_mem_cons.1 h
      rw [readDigits, toDigit_of_isDigit hc]
      dsimp only
      rw [ih hcs, Nat.ofDigitChars_cons, Nat.mul_comm value 10, List.length_cons, Nat.add_assoc,
        Nat.add_comm 1]

/-- **A port is read back from its digits.** -/
theorem readPort_digits {port : ℕ} (h : port < 65536) :
    readPort (':' :: Nat.toDigits 10 port) = some (port, []) := by
  have hread : readDigits 10 0 0 (Nat.toDigits 10 port) =
      (port, (Nat.toDigits 10 port).length, []) := by
    rw [readDigits_of_isDigit fun c hc => Nat.isDigit_of_mem_toDigits (by decide) (by decide) hc,
      Nat.ofDigitChars_ten_toDigits, Nat.zero_add]
  have hlen : (Nat.toDigits 10 port).length ≠ 0 := Nat.ne_of_gt Nat.length_toDigits_pos
  simp [readPort, readGivenChar, readNumber, hread, hlen, h]

end TunnelWarden
