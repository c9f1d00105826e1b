import TunnelWarden.Common.Net

/-!
# How long the text of an address can be

An address of four octets or eight segments is written in a few dozen
characters, and never in none. A character takes four bytes at most.
-/

namespace TunnelWarden

/-- A character takes at most four bytes. -/
theorem byteLen_le (s : String) : byteLen s ≤ 4 * s.toList.length := by
  have hencode (l : List Char) : l.utf8Encode.size ≤ 4 * l.length := by
    induction l with
    | nil => simp
    | cons c l ih =>
        have hc := c.utf8Size_le_four
        rw [List.utf8Encode_cons, ByteArray.size_append, List.utf8Encode_singleton]
        simp only [List.size_toByteArray, String.length_utf8EncodeChar, List.length_cons]
        omega
  have h := hencode s.toList
  rw [String.utf8Encode_toList] at h
  exact h

theorem length_digits_le {radix n k : ℕ} (hradix : 1 < radix) (hk : 0 < k) (h : n < radix ^ k) :
    (digits radix n).toList.length ≤ k := by
  rw [digits, String.toList_ofList]
  exact (Nat.length_toDigits_le_iff hradix hk).2 h

theorem length_digits_pos {radix n : ℕ} : 0 < (digits radix n).toList.length := by
  rw [digits, String.toList_ofList]
  exact Nat.length_toDigits_pos

/-- Short texts with a separator between them. -/
theorem length_intercalate_le {sep : String} {texts : List String} {k : ℕ}
    (hsep : sep.toList.length = 1) (h : ∀ text ∈ texts, text.toList.length ≤ k) :
    (sep.intercalate texts).toList.length ≤ (k + 1) * texts.length := by
  induction texts with
  | nil => simp
  | cons text rest ih =>
      obtain ⟨htext, hrest⟩ := List.forall_mem_cons.1 h
      have hih := ih hrest
      rw [List.length_cons, Nat.mul_succ]
      cases rest with
      | nil =>
          rw [String.intercalate_singleton]
          omega
      | cons next more =>
          rw [String.intercalate_cons_cons]
          simp only [String.toList_append, List.length_append]
          omega

theorem length_intercalate_pos {sep text : String} {texts : List String}
    (h : 0 < text.toList.length) : 0 < (sep.intercalate (text :: texts)).toList.length := by
  cases texts with
  | nil => rwa [String.intercalate_singleton]
  | cons next more =>
      rw [String.intercalate_cons_cons]
      simp only [String.toList_append, List.length_append]
      omega

theorem length_showSegments_le {ss : List ℕ} (h : ∀ s ∈ ss, s < 65536) :
    (showSegments ss).toList.length ≤ 5 * ss.length := by
  have hdigits : ∀ text ∈ ss.map (digits 16), text.toList.length ≤ 4 := by
    intro text htext
    obtain ⟨s, hs, rfl⟩ := List.mem_map.1 htext
    exact length_digits_le (by omega) (by omega) (h s hs)
  have hlen : (":".intercalate (ss.map (digits 16))).toList.length ≤ _ :=
    length_intercalate_le rfl hdigits
  rwa [List.length_map] at hlen

theorem length_showIpv4_le {a b c d : ℕ} (ha : a < 256) (hb : b < 256) (hc : c < 256)
    (hd : d < 256) : (showIpv4 a b c d).toList.length ≤ 16 := by
  have hdigits : ∀ text ∈ [a, b, c, d].map (digits 10), text.toList.length ≤ 3 := by
    intro text htext
    obtain ⟨n, hn, rfl⟩ := List.mem_map.1 htext
    refine length_digits_le (by omega) (by omega) ?_
    simp only [List.mem_cons, List.not_mem_nil, or_false] at hn
    omega
  have hlen : (".".intercalate ([a, b, c, d].map (digits 10))).toList.length ≤ _ :=
    length_intercalate_le rfl hdigits
  exact hlen

/-- The numbers of an address are octets or segments. -/
def IpAddr.Fits : IpAddr → Prop
  | .v4 a b c d => a < 256 ∧ b < 256 ∧ c < 256 ∧ d < 256
  | .v6 segments => segments.length = 8 ∧ ∀ s ∈ segments, s < 65536

/-- **An address is written in 1 to 42 characters.** -/
theorem length_display {ip : IpAddr} (h : ip.Fits) :
    0 < ip.display.toList.length ∧ ip.display.toList.length ≤ 42 := by
  unfold IpAddr.display
  split
  · rename_i a b c d
    obtain ⟨ha, hb, hc, hd⟩ := h
    have hle := length_showIpv4_le ha hb hc hd
    exact ⟨length_intercalate_pos length_digits_pos, by omega⟩
  · rename_i x y
    have hx : x < 65536 := h.2 x (by simp)
    have hy : y < 65536 := h.2 y (by simp)
    have hle : (showIpv4 (x / 256) (x % 256) (y / 256) (y % 256)).toList.length ≤ 16 :=
      length_showIpv4_le (by omega) (by omega) (by omega) (by omega)
    rw [String.toList_append, List.length_append]
    have hhead : "::ffff:".toList.length = 7 := rfl
    omega
  · rename_i ss _
    obtain ⟨hlen, hss⟩ := h
    generalize longestZeros ss 0 (0, 0) (0, 0) = zeros
    obtain ⟨start, len⟩ := zeros
    dsimp only
    split
    · -- The segments before the zeros and those after them are eight at most.
      have hbefore := length_showSegments_le fun s hs => hss s (List.mem_of_mem_take (i := start) hs)
      have hafter := length_showSegments_le fun s hs =>
        hss s (List.mem_of_mem_drop (i := start + len) hs)
      have hcolons : "::".toList.length = 2 := rfl
      rw [List.length_take, hlen] at hbefore
      rw [List.length_drop, hlen] at hafter
      simp only [String.toList_append, List.length_append]
      omega
    · have hle := length_showSegments_le hss
      obtain ⟨s, rest, rfl⟩ : ∃ s rest, ss = s :: rest := by
        cases ss with
        | nil => simp at hlen
        | cons s rest => exact ⟨s, rest, rfl⟩
      refine ⟨length_intercalate_pos length_digits_pos, ?_⟩
      omega

end TunnelWarden
