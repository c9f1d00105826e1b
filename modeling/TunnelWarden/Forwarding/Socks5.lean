import TunnelWarden.Common.NetShow
import TunnelWarden.Forwarding.Model.Socks5
import TunnelWarden.Ssh.Model.Chain

/-!
# What the SOCKS5 front end accepts

`Connect` is the grammar of a greeting and a request, with the
destination a stream of bytes stands for. The front end accepts exactly
the streams that begin so, reads not a byte more, and has answered with
the choice of the method only. Every other stream is refused, and what
is answered then is never a success.
-/

namespace TunnelWarden

namespace Socks5

open Wire

/-! ## The grammar -/

/-- The type and the bytes of an address, with the destination it is
part of by the port that follows. -/
inductive Address : List UInt8 → (ℕ → Destination) → Prop
  | ipv4 (a b c d : UInt8) :
      Address [1, a, b, c, d] fun port => .ip { ip := .v4 a.toNat b.toNat c.toNat d.toNat, port }
  | domain {length : UInt8} {bytes : List UInt8} {host : String} (hpos : length ≠ 0)
      (hlen : bytes.length = length.toNat) (hhost : fromUtf8 bytes = some host) :
      Address (3 :: length :: bytes) fun port => .domain host port
  | ipv6 {octets : List UInt8} (hlen : octets.length = 16) :
      Address (4 :: octets) fun port => .ip { ip := .v6 (segments octets), port }

/-- **A greeting and a request for a connection.** -/
inductive Connect : List UInt8 → Destination → Prop
  | intro {count hi lo : UInt8} {methods address : List UInt8} {destination : ℕ → Destination}
      (hpos : count ≠ 0) (hcount : methods.length = count.toNat) (hauth : 0 ∈ methods)
      (haddress : Address address destination) (hport : fromBeBytes hi lo ≠ 0) :
      Connect (5 :: count :: (methods ++ 5 :: 1 :: 0 :: (address ++ [hi, lo])))
        (destination (fromBeBytes hi lo))

/-! ## Reading -/

variable {s t : Stream}

theorem read_eq_ok {n : ℕ} {bytes : List UInt8} :
    read n s = (.ok bytes, t) ↔
      bytes.length = n ∧ s.input = bytes ++ t.input ∧ t.output = s.output :=
  readExact_eq_ok

theorem refuse_ne_ok {α : Type} {r : SocksReply} {what : String} {a : α} :
    refuse r what s ≠ (.ok a, t) := by
  intro h
  obtain ⟨u, s', -, hfail⟩ := run_bind_eq_ok.1 h
  exact fail_ne_ok hfail

theorem readPort_eq_ok {port : ℕ} :
    readPort s = (.ok port, t) ↔ ∃ hi lo, port = fromBeBytes hi lo ∧
      s.input = hi :: lo :: t.input ∧ t.output = s.output := by
  unfold readPort
  simp only [run_bind_eq_ok, read_eq_ok, pure_eq_ok]
  constructor
  · rintro ⟨bytes, u, ⟨hlen, hinput, houtput⟩, rfl, rfl⟩
    obtain ⟨hi, lo, rfl⟩ := List.length_eq_two.1 hlen
    exact ⟨hi, lo, rfl, hinput, houtput⟩
  · rintro ⟨hi, lo, rfl, hinput, houtput⟩
    exact ⟨[hi, lo], t, ⟨rfl, hinput, houtput⟩, rfl, rfl⟩

/-- An address of a known length, and the port behind it. -/
theorem readSized_eq_ok {n : ℕ} {g : List UInt8 → ℕ → Destination} {d : Destination} :
    (do
      let address ← read n
      let port ← readPort
      return g address port : Wire SocksError Destination) s = (.ok d, t) ↔
    ∃ address hi lo, address.length = n ∧ d = g address (fromBeBytes hi lo) ∧
      s.input = address ++ hi :: lo :: t.input ∧ t.output = s.output := by
  simp only [run_bind_eq_ok, read_eq_ok, readPort_eq_ok, pure_eq_ok]
  constructor
  · rintro ⟨address, u, ⟨hlen, hinput, houtput⟩, port, v, ⟨hi, lo, rfl, hinput', houtput'⟩, rfl, rfl⟩
    exact ⟨address, hi, lo, hlen, rfl, by rw [hinput, hinput'], by rw [houtput', houtput]⟩
  · rintro ⟨address, hi, lo, hlen, rfl, hinput, houtput⟩
    exact ⟨address, ⟨hi :: lo :: t.input, s.output⟩, ⟨hlen, hinput, rfl⟩, fromBeBytes hi lo, t,
      ⟨hi, lo, rfl, rfl, houtput⟩, rfl, rfl⟩

/-- A domain with its length, and the port behind it. -/
theorem readDomain_eq_ok {d : Destination} :
    readDestination 3 s = (.ok d, t) ↔
      ∃ length bytes host hi lo, length ≠ 0 ∧ bytes.length = length.toNat ∧
        fromUtf8 bytes = some host ∧ d = .domain host (fromBeBytes hi lo) ∧
        s.input = length :: (bytes ++ hi :: lo :: t.input) ∧ t.output = s.output := by
  unfold readDestination
  rw [if_neg (by decide), if_pos rfl]
  simp only [run_bind_eq_ok, read_eq_ok]
  constructor
  · rintro ⟨first, u, ⟨hone, hinput, houtput⟩, h⟩
    obtain ⟨length, rfl⟩ := List.length_eq_one_iff.1 hone
    rw [List.getD_cons_zero] at h
    split at h
    · exact absurd h refuse_ne_ok
    · rename_i hpos
      obtain ⟨bytes, v, hread, h⟩ := run_bind_eq_ok.1 h
      obtain ⟨hlen, hinput', houtput'⟩ := read_eq_ok.1 hread
      cases hhost : fromUtf8 bytes with
      | none =>
        rw [hhost] at h
        exact absurd h refuse_ne_ok
      | some host =>
        rw [hhost] at h
        obtain ⟨port, w, hport, h⟩ := run_bind_eq_ok.1 h
        obtain ⟨hi, lo, rfl, hinput'', houtput''⟩ := readPort_eq_ok.1 hport
        obtain ⟨rfl, rfl⟩ := pure_eq_ok.1 h
        exact ⟨length, bytes, host, hi, lo, hpos, hlen, hhost, rfl,
          by rw [hinput, hinput', hinput'']; rfl, by rw [houtput'', houtput', houtput]⟩
  · rintro ⟨length, bytes, host, hi, lo, hpos, hlen, hhost, rfl, hinput, houtput⟩
    refine ⟨[length], ⟨bytes ++ hi :: lo :: t.input, s.output⟩, ⟨rfl, hinput, rfl⟩, ?_⟩
    rw [List.getD_cons_zero, if_neg hpos]
    refine run_bind_eq_ok.2 ⟨bytes, ⟨hi :: lo :: t.input, s.output⟩, read_eq_ok.2 ⟨hlen, rfl, rfl⟩, ?_⟩
    rw [hhost]
    exact run_bind_eq_ok.2 ⟨_, t, readPort_eq_ok.2 ⟨hi, lo, rfl, rfl, houtput⟩, rfl⟩

/-- **An address and a port, each of its own length.** -/
theorem readDestination_eq_ok {addressType : UInt8} {d : Destination} :
    readDestination addressType s = (.ok d, t) ↔
      ∃ address destination hi lo, Address (addressType :: address) destination ∧
        d = destination (fromBeBytes hi lo) ∧ s.input = address ++ hi :: lo :: t.input ∧
        t.output = s.output := by
  constructor
  · intro h
    by_cases h1 : addressType = 1
    · subst h1
      obtain ⟨address, hi, lo, hlen, rfl, hinput, houtput⟩ := readSized_eq_ok.1 h
      obtain ⟨a, b, c, d, rfl⟩ := List.length_eq_four.1 hlen
      exact ⟨_, _, hi, lo, .ipv4 a b c d, rfl, hinput, houtput⟩
    by_cases h3 : addressType = 3
    · subst h3
      obtain ⟨length, bytes, host, hi, lo, hpos, hlen, hhost, rfl, hinput, houtput⟩ :=
        readDomain_eq_ok.1 h
      exact ⟨_, _, hi, lo, .domain hpos hlen hhost, rfl, hinput, houtput⟩
    by_cases h4 : addressType = 4
    · subst h4
      obtain ⟨address, hi, lo, hlen, rfl, hinput, houtput⟩ := readSized_eq_ok.1 h
      exact ⟨_, _, hi, lo, .ipv6 hlen, rfl, hinput, houtput⟩
    · unfold readDestination at h
      rw [if_neg h1, if_neg h3, if_neg h4] at h
      exact absurd h refuse_ne_ok
  · rintro ⟨address, destination, hi, lo, haddress, rfl, hinput, houtput⟩
    cases haddress with
    | ipv4 a b c d => exact readSized_eq_ok.2 ⟨_, hi, lo, rfl, rfl, hinput, houtput⟩
    | domain hpos hlen hhost =>
        exact readDomain_eq_ok.2 ⟨_, _, _, hi, lo, hpos, hlen, hhost, rfl, hinput, houtput⟩
    | ipv6 hlen => exact readSized_eq_ok.2 ⟨_, hi, lo, hlen, rfl, hinput, houtput⟩

theorem Address.port {address : List UInt8} {destination : ℕ → Destination}
    (h : Address address destination) (port : ℕ) : (destination port).port = port := by
  cases h <;> rfl

theorem readRequest_eq_ok {d : Destination} :
    readRequest s = (.ok ⟨d⟩, t) ↔
      ∃ address destination hi lo, Address address destination ∧ fromBeBytes hi lo ≠ 0 ∧
        d = destination (fromBeBytes hi lo) ∧
        s.input = 5 :: 1 :: 0 :: (address ++ hi :: lo :: t.input) ∧ t.output = s.output := by
  unfold readRequest
  constructor
  · intro h
    obtain ⟨header, u, hread, h⟩ := run_bind_eq_ok.1 h
    obtain ⟨hlen, hinput, houtput⟩ := read_eq_ok.1 hread
    -- four bytes: each check of the header is about one of them
    obtain ⟨v, command, reserved, addressType, rfl⟩ := List.length_eq_four.1 hlen
    simp only [List.getD_cons_zero, List.getD_cons_succ] at h
    split at h
    · exact absurd h refuse_ne_ok
    rename_i hheader
    split at h
    · exact absurd h refuse_ne_ok
    rename_i hcommand
    obtain ⟨d', w, hdest, h⟩ := run_bind_eq_ok.1 h
    split at h
    · exact absurd h refuse_ne_ok
    rename_i hport
    obtain ⟨heq, rfl⟩ := pure_eq_ok.1 h
    obtain rfl := SocksConnectRequest.mk.inj heq
    obtain ⟨address, destination, hi, lo, haddress, rfl, hinput', houtput'⟩ :=
      readDestination_eq_ok.1 hdest
    obtain ⟨hversion, hreserved⟩ := not_or.1 hheader
    obtain rfl := not_not.1 hversion
    obtain rfl := not_not.1 hreserved
    obtain rfl := not_not.1 hcommand
    rw [haddress.port] at hport
    exact ⟨_, destination, hi, lo, haddress, hport, rfl, by rw [hinput, hinput']; rfl,
      by rw [houtput', houtput]⟩
  · rintro ⟨address, destination, hi, lo, haddress, hport, rfl, hinput, houtput⟩
    -- the type of the address is the last byte of the header
    obtain ⟨addressType, rest, rfl⟩ : ∃ a rest, address = a :: rest := by
      cases haddress <;> exact ⟨_, _, rfl⟩
    refine run_bind_eq_ok.2 ⟨[5, 1, 0, addressType], ⟨rest ++ hi :: lo :: t.input, s.output⟩,
      read_eq_ok.2 ⟨rfl, hinput, rfl⟩, ?_⟩
    simp only [List.getD_cons_zero, List.getD_cons_succ]
    rw [if_neg (by decide), if_neg (by decide)]
    refine run_bind_eq_ok.2 ⟨destination (fromBeBytes hi lo), t, readDestination_eq_ok.2
      ⟨rest, destination, hi, lo, haddress, rfl, rfl, houtput⟩, ?_⟩
    rw [haddress.port, if_neg hport]
    rfl

/-- **The streams that are accepted**, what is left of them, and what was
answered. -/
theorem readConnect_eq_ok {stream : List UInt8} {d : Destination} :
    readConnect ⟨stream, []⟩ = (.ok ⟨d⟩, t) ↔
      ∃ consumed, Connect consumed d ∧ stream = consumed ++ t.input ∧ t.output = [5, 0] := by
  unfold readConnect
  constructor
  · intro h
    obtain ⟨greeting, u, hread, h⟩ := run_bind_eq_ok.1 h
    obtain ⟨hlen, hinput, houtput⟩ := read_eq_ok.1 hread
    obtain ⟨v, count, rfl⟩ := List.length_eq_two.1 hlen
    simp only [List.getD_cons_zero, List.getD_cons_succ] at h
    split at h
    · exact absurd h fail_ne_ok
    rename_i hgreeting
    obtain ⟨methods, u', hread', h⟩ := run_bind_eq_ok.1 h
    obtain ⟨hcount, hinput', houtput'⟩ := read_eq_ok.1 hread'
    split at h
    · obtain ⟨_, _, _, hfail⟩ := run_bind_eq_ok.1 h
      exact absurd hfail fail_ne_ok
    rename_i hauth
    obtain ⟨_, w, hwrite, h⟩ := run_bind_eq_ok.1 h
    obtain rfl := writeAll_eq_ok.1 hwrite
    obtain ⟨address, destination, hi, lo, haddress, hport, rfl, hinput'', houtput''⟩ :=
      readRequest_eq_ok.1 h
    obtain ⟨hversion, hpos⟩ := not_or.1 hgreeting
    obtain rfl := not_not.1 hversion
    refine ⟨_, .intro hpos hcount (not_not.1 hauth) haddress hport, ?_, ?_⟩
    · dsimp only at hinput hinput''
      rw [hinput, hinput', hinput'']
      simp [version]
    · rw [houtput'', houtput', houtput]
      rfl
  · rintro ⟨consumed, hconnect, rfl, houtput⟩
    obtain ⟨hpos, hcount, hauth, haddress, hport⟩ := hconnect
    rename_i count hi lo methods address destination
    -- what follows the greeting
    let request := 5 :: 1 :: 0 :: (address ++ hi :: lo :: t.input)
    refine run_bind_eq_ok.2 ⟨[5, count], ⟨methods ++ request, []⟩,
      read_eq_ok.2 ⟨rfl, by simp [request], rfl⟩, ?_⟩
    simp only [List.getD_cons_zero, List.getD_cons_succ]
    rw [if_neg (by rintro (h | h); exact h rfl; exact hpos h)]
    refine run_bind_eq_ok.2 ⟨methods, ⟨request, []⟩, read_eq_ok.2 ⟨hcount, rfl, rfl⟩, ?_⟩
    have hoffered : ¬ noAuth ∉ methods := not_not.2 hauth
    rw [if_neg hoffered]
    refine run_bind_eq_ok.2 ⟨(), ⟨request, [5, 0]⟩, rfl, ?_⟩
    exact readRequest_eq_ok.2 ⟨address, destination, hi, lo, haddress, hport, rfl, rfl, houtput⟩

/-! ## Answering -/

/-- What a client can have been told when its request fails. -/
def Refused (out : List UInt8) : Prop :=
  out = [] ∨ out = [5, 0xff] ∨ out = [5, 0] ∨
    ∃ r : SocksReply, r ≠ .succeeded ∧ out = [5, 0] ++ r.bytes

theorem refused_chosen {out : List UInt8} (h : out = [5, 0]) : Refused out := .inr (.inr (.inl h))

theorem refuse_answers {α : Type} {r : SocksReply} {what : String} {V : α → List UInt8 → Prop}
    (h : r ≠ .succeeded) : Answers (· = [5, 0]) (refuse r what) V Refused := by
  refine Answers.bind (V := fun _ out => out = [5, 0] ++ r.bytes) (Answers.writeAll ?_) fun _ =>
    Answers.fail fun out hout => .inr (.inr (.inr ⟨r, h, hout⟩))
  rintro out rfl
  rfl

theorem read_answers {n : ℕ} :
    Answers (· = [5, 0]) (read n) (fun _ out => out = [5, 0]) Refused :=
  Answers.readExact fun _ => refused_chosen

theorem readPort_answers : Answers (· = [5, 0]) readPort (fun _ out => out = [5, 0]) Refused :=
  Answers.bind read_answers fun _ => Answers.pure fun _ hout => hout

theorem readDestination_answers (addressType : UInt8) :
    Answers (· = [5, 0]) (readDestination addressType) (fun _ out => out = [5, 0]) Refused := by
  unfold readDestination
  split
  · exact Answers.bind read_answers fun _ => Answers.bind readPort_answers fun _ =>
      Answers.pure fun _ hout => hout
  split
  · refine Answers.bind read_answers fun length => ?_
    split
    · exact refuse_answers (by decide)
    refine Answers.bind read_answers fun bytes => ?_
    cases fromUtf8 bytes with
    | none => exact refuse_answers (by decide)
    | some host =>
        exact Answers.bind readPort_answers fun _ => Answers.pure fun _ hout => hout
  split
  · exact Answers.bind read_answers fun _ => Answers.bind readPort_answers fun _ =>
      Answers.pure fun _ hout => hout
  · exact refuse_answers (by decide)

theorem readRequest_answers :
    Answers (· = [5, 0]) readRequest (fun _ out => out = [5, 0]) Refused := by
  refine Answers.bind read_answers fun header => ?_
  split
  · exact refuse_answers (by decide)
  split
  · exact refuse_answers (by decide)
  refine Answers.bind (readDestination_answers _) fun destination => ?_
  split
  · exact refuse_answers (by decide)
  · exact Answers.pure fun _ hout => hout

/-- **A refusal never reads like a success.** -/
theorem readConnect_answers :
    Answers (· = []) readConnect (fun _ out => out = [5, 0]) Refused := by
  refine Answers.bind (Answers.readExact fun _ => .inl) fun greeting => ?_
  split
  · exact Answers.fail fun _ => .inl
  refine Answers.bind (Answers.readExact fun _ => .inl) fun methods => ?_
  split
  · refine Answers.bind (V := fun _ out => out = [5, 0xff]) (Answers.writeAll ?_) fun _ =>
      Answers.fail fun _ hout => .inr (.inl hout)
    rintro out rfl
    rfl
  · refine Answers.bind (V := fun _ out => out = [5, 0]) (Answers.writeAll ?_) fun _ =>
      readRequest_answers
    rintro out rfl
    rfl

/-! ## The destination -/

theorem fromBeBytes_lt (hi lo : UInt8) : fromBeBytes hi lo < 65536 := by
  have hhi := hi.toNat_lt
  have hlo := lo.toNat_lt
  unfold fromBeBytes
  omega

theorem segments_fit {octets : List UInt8} {k : ℕ} (h : octets.length = 2 * k) :
    (segments octets).length = k ∧ ∀ s ∈ segments octets, s < 65536 := by
  induction k generalizing octets with
  | zero =>
      obtain rfl := List.length_eq_zero_iff.1 h
      simp [segments]
  | succ k ih =>
      match octets, h with
      | hi :: lo :: rest, h =>
          have hrest : rest.length = 2 * k := by
            simp only [List.length_cons] at h
            omega
          obtain ⟨hlen, hall⟩ := ih hrest
          refine ⟨by rw [segments, List.length_cons, hlen], ?_⟩
          rw [segments]
          exact List.forall_mem_cons.2 ⟨fromBeBytes_lt hi lo, hall⟩

theorem byteLen_fromUtf8 {bytes : List UInt8} {host : String} (h : fromUtf8 bytes = some host) :
    byteLen host = bytes.length := by
  unfold fromUtf8 String.fromUTF8? at h
  split at h
  · obtain rfl := Option.some.inj h
    rfl
  · simp at h

theorem destination_of_fits {ip : IpAddr} (h : ip.Fits) :
    ip.display ≠ "" ∧ byteLen ip.display ≤ 255 := by
  obtain ⟨hpos, hle⟩ := length_display h
  have hbytes := byteLen_le ip.display
  refine ⟨fun hempty => ?_, by omega⟩
  rw [hempty] at hpos
  simp at hpos

/-- Every address names a host a channel can be opened to. -/
theorem Address.host {address : List UInt8} {destination : ℕ → Destination}
    (h : Address address destination) (port : ℕ) :
    (destination port).host ≠ "" ∧ byteLen (destination port).host ≤ 255 := by
  cases h with
  | ipv4 a b c d =>
      have hfits : (IpAddr.v4 a.toNat b.toNat c.toNat d.toNat).Fits :=
        ⟨a.toNat_lt, b.toNat_lt, c.toNat_lt, d.toNat_lt⟩
      exact destination_of_fits hfits
  | @domain length bytes host hpos hlen hhost =>
      have hbytes := byteLen_fromUtf8 hhost
      have hmax := length.toNat_lt
      refine ⟨fun hempty => hpos ?_, ?_⟩
      -- an empty host has no bytes, and a domain has at least one
      · have hzero : byteLen host = 0 := by
          rw [show host = "" from hempty]
          rfl
        have hnat : length.toNat = (0 : UInt8).toNat := by
          rw [← hlen, ← hbytes, hzero]
          rfl
        exact UInt8.toNat_inj.1 hnat
      · have hle : byteLen host ≤ 255 := by omega
        exact hle
  | @ipv6 octets hlen =>
      have hfits : (IpAddr.v6 (segments octets)).Fits := segments_fit hlen
      exact destination_of_fits hfits

theorem Connect.checkDestination {consumed : List UInt8} {d : Destination}
    (h : Connect consumed d) : Ssh.checkDestination d.host d.port = .ok () := by
  obtain ⟨-, -, -, haddress, hport⟩ := h
  obtain ⟨hhost, hlen⟩ := haddress.host (fromBeBytes _ _)
  unfold Ssh.checkDestination
  rw [haddress.port, if_neg]
  rintro (h | h | h)
  · exact hhost h
  · omega
  · exact hport h

/-- **The front end accepts its grammar and nothing more.** A stream is
accepted where it begins with a greeting and a request, with the
destination these encode, one a channel can be opened to; the bytes
behind them are left, and the choice of the method is all that was
answered. Any other stream is refused, and no answer reads like a
success. -/
theorem readConnect_grammar (stream : List UInt8) :
    (∀ d t, readConnect ⟨stream, []⟩ = (.ok ⟨d⟩, t) ↔
      ∃ consumed, Connect consumed d ∧ stream = consumed ++ t.input ∧ t.output = [5, 0]) ∧
    (∀ consumed rest d, stream = consumed ++ rest → Connect consumed d →
      Ssh.checkDestination d.host d.port = .ok ()) ∧
    ((¬ ∃ consumed rest d, stream = consumed ++ rest ∧ Connect consumed d) →
      ∃ e t, readConnect ⟨stream, []⟩ = (.error e, t) ∧ Refused t.output) := by
  refine ⟨fun d t => readConnect_eq_ok, fun _ _ _ _ hconnect => hconnect.checkDestination,
    fun hno => ?_⟩
  have hanswers := readConnect_answers ⟨stream, []⟩ rfl
  rcases hr : readConnect ⟨stream, []⟩ with ⟨e | request, t⟩
  · rw [hr] at hanswers
    exact ⟨e, t, rfl, hanswers⟩
  · obtain ⟨d⟩ := request
    obtain ⟨consumed, hconnect, hstream, -⟩ := readConnect_eq_ok.1 hr
    exact absurd ⟨consumed, t.input, d, hstream, hconnect⟩ hno

/-- A domain is kept as it was sent. -/
example : readConnect ⟨[5, 1, 0, 5, 1, 0, 3, 4, 104, 111, 115, 116, 1, 187, 42], []⟩ =
    (.ok ⟨.domain "host" 443⟩, ⟨[42], [5, 0]⟩) := by
  decide +kernel

end Socks5

end TunnelWarden
