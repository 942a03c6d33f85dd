/-
# The request grammar

Which packets lead to a call of `socket_impl.c`, and to which.  `Encodes` is the grammar, written
from the encoders in the adapter's `gbridge_prot_ma.c`: one form for each of the seven requests,
with nothing missing and nothing behind it.

The handlers of the bridge follow it but for one thing.  `recv_cmd_sock_send` looks for an address
at the front of what it is given and does not look whether anything comes after, as
`recv_cmd_sock_connect` does.  Packets of this kind are `Trailing`, and `grammar_iff` says that all
others lead to the calls of the grammar and to no more.

* From the grammar to the code: what `Encodes` builds is what `asks` takes apart, `address_read`
  included (`Encodes.asks_eq`).  The bytes that an earlier packet has left behind this one in
  `data_buf` are anything (`inBuffer`).
* From the code to the grammar: the size that a handler asks for leaves one form only
  (`Encodes.of_calls`).
* That the call is made is shown from both sides: a run that comes to its end has made it and no
  other (`needs_calls`), and there is a run that comes to it (`calls_reach`).  A SEND is followed by
  its stream, which has to arrive before the call is made (`wpSure_gbridgeRecvStream`).
-/
import GBridge.Bridge.Service
import GBridge.Bridge.Reply

namespace GBridge.Bridge

open Prog Bytes

/-! ## 1. The grammar -/

/-- The packet is the request for this call.  The bytes to be sent come behind it, as a stream. -/
inductive Encodes (payload : List UInt8) : List UInt8 → SockCall → Prop
  | «open» (conn type addrtype h l : UInt8) :
    Encodes payload [ProtMa.cmdOpen, conn, type, addrtype, h, l]
      (.open conn.toNat type addrtype (be16 h l))
  | close (conn : UInt8) : Encodes payload [ProtMa.cmdClose, conn] (.close conn.toNat)
  | connect (conn : UInt8) {addr : MobileAddr} (haddr : addr ≠ .none) :
    Encodes payload (ProtMa.cmdConnect :: conn :: addressWrite (some addr))
      (.connect conn.toNat (some addr))
  | listen (conn : UInt8) : Encodes payload [ProtMa.cmdListen, conn] (.listen conn.toNat)
  | accept (conn : UInt8) : Encodes payload [ProtMa.cmdAccept, conn] (.accept conn.toNat)
  | send (conn : UInt8) (addr : MobileAddr) :
    Encodes payload (ProtMa.cmdSend :: conn :: addressWrite (some addr))
      (.send conn.toNat payload (some addr))
  | recv (conn h l : UInt8) :
    Encodes payload [ProtMa.cmdRecv, conn, h, l]
      (.recv conn.toNat (some (be16 h l)) (some .none))

/-- A SEND with something behind its address. -/
def Trailing (packet : List UInt8) : Prop :=
  ∃ conn addr t, t ≠ [] ∧
    packet = ProtMa.cmdSend :: conn :: (addressWrite (some addr) ++ t)

/-- The calls a request leads to, the bytes of the stream being these. -/
def Ask.calls (payload : List UInt8) : Ask → List SockCall
  | .nothing => []
  | .call c => [c]
  | .send conn addr => [.send conn payload addr]

section Packet

variable {packet before payload : List UInt8}

/-- The packet the handlers find, in front of what was there before. -/
def inBuffer (packet before : List UInt8) : GbridgeData :=
  ⟨UInt8.ofNat packet.length, packet ++ before⟩

theorem size_inBuffer (before : List UInt8) (hlen : packet.length ≤ maxDataSize) :
    (inBuffer packet before).size.toNat = packet.length := by
  rw [inBuffer, UInt8.toNat_ofNat']
  exact Nat.mod_eq_of_lt (Nat.lt_of_le_of_lt hlen (by decide))

/-- The handlers read the address off the packet itself. -/
theorem addressRead_inBuffer (before : List UInt8) {cmd conn : UInt8} {rest : List UInt8}
    (hlen : (cmd :: conn :: rest).length ≤ maxDataSize) :
    addressRead ((inBuffer (cmd :: conn :: rest) before).buffer.drop 2)
        ((inBuffer (cmd :: conn :: rest) before).size.toNat - 2) =
      addressRead rest rest.length := by
  rw [size_inBuffer before hlen]
  exact addressRead_append (Nat.le_refl _)

theorem size_ne (hlen : packet.length ≤ maxDataSize) {n : UInt8} :
    (inBuffer packet before).size ≠ n ↔ packet.length ≠ n.toNat := by
  rw [← size_inBuffer before hlen, ne_eq, ne_eq, UInt8.toNat_inj]

theorem size_lt (hlen : packet.length ≤ maxDataSize) {n : UInt8} :
    (inBuffer packet before).size < n ↔ packet.length < n.toNat := by
  rw [← size_inBuffer before hlen, UInt8.lt_iff_toNat_lt]

/-- A request with an address, as CONNECT has it. -/
theorem asks_connect {conn : UInt8} {rest : List UInt8}
    (hlen : (ProtMa.cmdConnect :: conn :: rest).length ≤ maxDataSize) :
    asks (inBuffer (ProtMa.cmdConnect :: conn :: rest) before) =
      if (addressRead rest rest.length).1 ≤ 1 then .nothing
      else if rest.length ≠ (addressRead rest rest.length).1 then .nothing
      else .call (.connect conn.toNat (addressRead rest rest.length).2) := by
  have hge : ¬ (inBuffer (ProtMa.cmdConnect :: conn :: rest) before).size < 2 := by
    rw [size_lt hlen]
    exact Nat.not_lt_of_le (Nat.le_add_left 2 rest.length)
  have hsize : ∀ k, (inBuffer (ProtMa.cmdConnect :: conn :: rest) before).size.toNat ≠ 2 + k ↔
      rest.length ≠ k := by
    intro k
    rw [size_inBuffer before hlen, List.length_cons, List.length_cons]
    omega
  have haddr := addressRead_inBuffer before hlen
  unfold asks
  simp only [haddr, hsize, if_neg hge]
  rfl

/-- A request with an address, as SEND has it. -/
theorem asks_send {conn : UInt8} {rest : List UInt8}
    (hlen : (ProtMa.cmdSend :: conn :: rest).length ≤ maxDataSize) :
    asks (inBuffer (ProtMa.cmdSend :: conn :: rest) before) =
      if (addressRead rest rest.length).1 = 0 then .nothing
      else .send conn.toNat (addressRead rest rest.length).2 := by
  have hge : ¬ (inBuffer (ProtMa.cmdSend :: conn :: rest) before).size < 2 := by
    rw [size_lt hlen]
    exact Nat.not_lt_of_le (Nat.le_add_left 2 rest.length)
  have haddr := addressRead_inBuffer before hlen
  unfold asks
  simp only [haddr, if_neg hge]
  rfl

/-- What a request for a call asks for: the bytes to be sent are not in its packet. -/
def SockCall.ask : SockCall → Ask
  | .send conn _ addr => .send conn addr
  | c => .call c

/-- What the grammar describes is asked for. -/
theorem Encodes.asks_eq (hlen : packet.length ≤ maxDataSize) {c : SockCall}
    (h : Encodes payload packet c) : asks (inBuffer packet before) = c.ask := by
  cases h with
  | «open» | close | listen | accept | recv => rfl
  | connect conn haddr =>
    rename_i addr
    have hread := addressRead_write (some addr) [] _ (Nat.le_refl _)
    have hlong : ¬ (addressWrite (some addr)).length ≤ 1 := by
      cases addr with
      | none => exact absurd rfl haddr
      | ipv4 | ipv6 => simp [addressWrite]
    rw [List.append_nil] at hread
    rw [asks_connect hlen, hread, if_neg hlong, if_neg (not_not.mpr rfl)]
    rfl
  | send conn addr =>
    have hread := addressRead_write (some addr) [] _ (Nat.le_refl _)
    have hsome : (addressWrite (some addr)).length ≠ 0 :=
      Nat.ne_zero_of_lt (addressWrite_length _).1
    rw [List.append_nil] at hread
    rw [asks_send hlen, hread, if_neg hsome]
    rfl

/-- What the grammar describes is carried out. -/
theorem Encodes.calls (hlen : packet.length ≤ maxDataSize) {c : SockCall}
    (h : Encodes payload packet c) : (asks (inBuffer packet before)).calls payload = [c] := by
  rw [h.asks_eq hlen]
  cases h <;> rfl

/-- Where `address_read` finds an address, it stands at the front. -/
theorem address_front {rest : List UInt8} (h : (addressRead rest rest.length).1 ≠ 0) :
    ∃ addr t, rest = addressWrite (some addr) ++ t ∧
      addressRead rest rest.length = ((addressWrite (some addr)).length, some addr) := by
  obtain ⟨addr, hread, -, htake⟩ := addressRead_sound (Nat.le_refl _) h
  refine ⟨addr, rest.drop (addressWrite (some addr)).length, ?_, hread⟩
  nth_rewrite 1 [← List.take_append_drop (addressWrite (some addr)).length rest, htake]
  rfl

/-- A request of a fixed length. -/
theorem mem_calls_sized (hlen : packet.length ≤ maxDataSize) {n : UInt8} {a : Ask} {c : SockCall}
    (hc : c ∈ (if (inBuffer packet before).size ≠ n then Ask.nothing else a).calls payload) :
    packet.length = n.toNat ∧ c ∈ a.calls payload := by
  by_cases hne : (inBuffer packet before).size ≠ n
  · rw [if_pos hne] at hc
    exact absurd hc List.not_mem_nil
  · rw [if_neg hne] at hc
    exact ⟨not_not.mp fun h => hne ((size_ne hlen).mpr h), hc⟩

/-- Every request has a command and a connection number. -/
theorem asks_short (hlen : packet.length ≤ maxDataSize) (hshort : packet.length < 2) :
    asks (inBuffer packet before) = .nothing := by
  have hne : ∀ n : UInt8, 2 ≤ n.toNat → (inBuffer packet before).size ≠ n := fun n hn =>
    (size_ne hlen).mpr (Nat.ne_of_lt (Nat.lt_of_lt_of_le hshort hn))
  have hlt : (inBuffer packet before).size < 2 := (size_lt hlen).mpr hshort
  simp only [asks, if_pos (hne 6 (by decide)), if_pos (hne 2 (by decide)),
    if_pos (hne 4 (by decide)), if_pos hlt, ite_self]

/-- CONNECT reads a whole address, and no more may follow. -/
theorem Encodes.of_connect {conn : UInt8} {rest : List UInt8} {c : SockCall}
    (hlen : (ProtMa.cmdConnect :: conn :: rest).length ≤ maxDataSize)
    (hc : c ∈ (asks (inBuffer (ProtMa.cmdConnect :: conn :: rest) before)).calls payload) :
    Encodes payload (ProtMa.cmdConnect :: conn :: rest) c := by
  rw [asks_connect hlen] at hc
  by_cases hle : (addressRead rest rest.length).1 ≤ 1
  · rw [if_pos hle] at hc
    exact absurd hc List.not_mem_nil
  by_cases hne : rest.length ≠ (addressRead rest rest.length).1
  · rw [if_neg hle, if_pos hne] at hc
    exact absurd hc List.not_mem_nil
  obtain ⟨addr, t, hrest, hread⟩ := address_front fun h => hle (h ▸ Nat.zero_le 1)
  rw [if_neg hle, if_neg hne, hread] at hc
  obtain rfl := List.mem_singleton.mp hc
  rw [hread] at hle hne
  have hnil : t = [] := by
    rw [not_not, hrest, List.length_append] at hne
    exact List.eq_nil_of_length_eq_zero (by simpa using hne)
  rw [hrest, hnil, List.append_nil]
  refine .connect conn fun hnone => hle ?_
  rw [hnone]
  exact Nat.le_refl 1

/-- SEND reads an address off the front. -/
theorem Encodes.of_send {conn : UInt8} {rest : List UInt8} {c : SockCall}
    (hlen : (ProtMa.cmdSend :: conn :: rest).length ≤ maxDataSize)
    (hno : ¬ Trailing (ProtMa.cmdSend :: conn :: rest))
    (hc : c ∈ (asks (inBuffer (ProtMa.cmdSend :: conn :: rest) before)).calls payload) :
    Encodes payload (ProtMa.cmdSend :: conn :: rest) c := by
  rw [asks_send hlen] at hc
  by_cases hzero : (addressRead rest rest.length).1 = 0
  · rw [if_pos hzero] at hc
    exact absurd hc List.not_mem_nil
  obtain ⟨addr, t, hrest, hread⟩ := address_front hzero
  rw [if_neg hzero, hread] at hc
  obtain rfl := List.mem_singleton.mp hc
  have hnil : t = [] := not_not.mp fun ht => hno ⟨conn, addr, t, ht, by rw [hrest]⟩
  rw [hrest, hnil, List.append_nil]
  exact .send conn addr

/-- **What is carried out is what the grammar describes**, but for a SEND with something behind
its address. -/
theorem Encodes.of_calls (hlen : packet.length ≤ maxDataSize) (hno : ¬ Trailing packet)
    {c : SockCall} (hc : c ∈ (asks (inBuffer packet before)).calls payload) :
    Encodes payload packet c := by
  rcases packet with _ | ⟨cmd, _ | ⟨conn, rest⟩⟩
  · rw [asks_short hlen (by simp)] at hc
    exact absurd hc List.not_mem_nil
  · rw [asks_short hlen (by simp)] at hc
    exact absurd hc List.not_mem_nil
  · -- a request of two bytes is its command and its connection number
    have hbare : (cmd :: conn :: rest).length = (2 : UInt8).toNat → rest = [] := fun h =>
      List.eq_nil_of_length_eq_zero (by simpa using h)
    by_cases h0 : cmd = ProtMa.cmdOpen
    · subst h0
      obtain ⟨hsize, hc⟩ := mem_calls_sized (n := 6) hlen hc
      obtain ⟨type, addrtype, h, l, rfl⟩ : ∃ a b c d, rest = [a, b, c, d] :=
        List.length_eq_four.mp (by simpa using hsize)
      obtain rfl := List.mem_singleton.mp hc
      exact .open conn type addrtype h l
    by_cases h1 : cmd = ProtMa.cmdClose
    · subst h1
      obtain ⟨hsize, hc⟩ := mem_calls_sized (n := 2) hlen hc
      obtain rfl := hbare hsize
      obtain rfl := List.mem_singleton.mp hc
      exact .close conn
    by_cases h2 : cmd = ProtMa.cmdConnect
    · subst h2
      exact .of_connect hlen hc
    by_cases h3 : cmd = ProtMa.cmdListen
    · subst h3
      obtain ⟨hsize, hc⟩ := mem_calls_sized (n := 2) hlen hc
      obtain rfl := hbare hsize
      obtain rfl := List.mem_singleton.mp hc
      exact .listen conn
    by_cases h4 : cmd = ProtMa.cmdAccept
    · subst h4
      obtain ⟨hsize, hc⟩ := mem_calls_sized (n := 2) hlen hc
      obtain rfl := hbare hsize
      obtain rfl := List.mem_singleton.mp hc
      exact .accept conn
    by_cases h5 : cmd = ProtMa.cmdSend
    · subst h5
      exact .of_send hlen hno hc
    by_cases h6 : cmd = ProtMa.cmdRecv
    · subst h6
      obtain ⟨hsize, hc⟩ := mem_calls_sized (n := 4) hlen hc
      obtain ⟨h, l, rfl⟩ : ∃ a b, rest = [a, b] := List.length_eq_two.mp (by simpa using hsize)
      obtain rfl := List.mem_singleton.mp hc
      exact .recv conn h l
    have hcmd : (inBuffer (cmd :: conn :: rest) before).buffer.getD 0 0 = cmd := rfl
    have hnothing : asks (inBuffer (cmd :: conn :: rest) before) = .nothing := by
      simp only [asks, hcmd, if_neg h0, if_neg h1, if_neg h2, if_neg h3, if_neg h4, if_neg h5,
        if_neg h6]
    rw [hnothing] at hc
    exact absurd hc List.not_mem_nil

/-- Nothing stands behind the address of a SEND. -/
theorem Encodes.send_exact {conn : UInt8} {rest : List UInt8} {c : SockCall}
    (h : Encodes payload packet c) (hpacket : packet = ProtMa.cmdSend :: conn :: rest) :
    ∃ addr, rest = addressWrite (some addr) := by
  cases h with
  | send _ addr => exact ⟨addr, (List.cons.inj (List.cons.inj hpacket).2).2.symm⟩
  | «open» | close | connect | listen | accept | recv =>
    exact absurd (List.cons.inj hpacket).1 (by decide)

/-- A SEND with something behind its address is carried out, and it is not in the grammar. -/
theorem Trailing.calls (payload before : List UInt8) (hlen : packet.length ≤ maxDataSize)
    (h : Trailing packet) :
    ∃ c, (asks (inBuffer packet before)).calls payload = [c] ∧ ¬ Encodes payload packet c := by
  obtain ⟨conn, addr, t, ht, rfl⟩ := h
  have hread := addressRead_write (some addr) t (addressWrite (some addr) ++ t).length
    (by rw [List.length_append]; exact Nat.le_add_right _ _)
  have hsome : (addressWrite (some addr)).length ≠ 0 :=
    Nat.ne_zero_of_lt (addressWrite_length _).1
  rw [asks_send hlen, hread, if_neg hsome]
  refine ⟨_, rfl, fun henc => ?_⟩
  -- the address read at the front is as long as the one the grammar sees, and there is more
  obtain ⟨addr', hsame⟩ := henc.send_exact rfl
  have hread' := addressRead_write (some addr') [] _ (Nat.le_refl _)
  rw [List.append_nil, ← hsame, hread] at hread'
  have hlength := (Prod.mk.inj hread').1
  rw [List.length_append] at hlength
  exact ht (List.eq_nil_of_length_eq_zero (by omega))

end Packet

/-! ## 2. The stream behind a SEND -/

/-- The reads that bring a stream frame. -/
def streamReads (payload : List UInt8) : List ReadRes :=
  [.bytes [Cmd.stream], .bytes [hi payload.length, lo payload.length], .bytes payload,
    .bytes (checksumBytes payload)]

section Stream

variable {payload : List UInt8} {rest : List ReadRes} {w : World (List ReadRes)}

/-- The weakest precondition on the scripted port, of what can be answered. -/
abbrev wpSure {α : Type} (p : Code α) (Q : α → World (List ReadRes) → Prop)
    (w : World (List ReadRes)) : Prop :=
  wpre (Spec.sure (sem scripted)) true p Q w

theorem wpSure_get {β : Type} {f : State → Code β} {Q : β → World (List ReadRes) → Prop}
    (h : wpSure (f w.g) Q w) : wpSure (get.bind f) Q w := by
  refine ⟨⟨_, _, rfl, rfl⟩, ?_⟩
  rintro _ _ ⟨rfl, rfl⟩
  exact h

theorem wpSure_recvData {β : Type} {dst : Dst} (bs : List UInt8) {reads : List ReadRes}
    {f : Option (List UInt8) → Code β} {Q : β → World (List ReadRes) → Prop}
    (hport : w.port = .bytes bs :: reads)
    (h : ∀ w', w'.g = w.g.store bs dst → w'.port = reads → wpSure (f (some bs)) Q w') :
    wpSure ((recvData dst bs.length).bind f) Q w := by
  refine ⟨⟨.bytes bs, _, _, ⟨hport, Nat.le_refl _⟩, rfl⟩, ?_⟩
  rintro r _ ⟨s, ⟨hs, -⟩, rfl⟩
  rw [hport] at hs
  obtain ⟨rfl, rfl⟩ := List.cons.inj hs
  refine ⟨⟨(), _, rfl⟩, ?_⟩
  rintro _ _ rfl
  rw [if_neg (not_not.mpr rfl)]
  exact h _ rfl rfl

/-- A stream that comes whole is received. -/
theorem wpSure_gbridgeRecvStream (hup : w.g.connected = true) (hlen : payload.length ≤ 0x200)
    (hport : w.port = streamReads payload ++ rest) :
    wpSure (gbridgeRecvStream 0x200) (fun r _ => r = ((payload.length : Int), payload)) w := by
  have hsize : be16 (hi payload.length) (lo payload.length) = payload.length := by
    rw [be16_hi_lo, Nat.mod_eq_of_lt (Nat.lt_of_le_of_lt hlen (by decide))]
  refine wpSure_get ?_
  rw [hup]
  refine wpSure_recvData [Cmd.stream] hport fun w₁ _ hport₁ => ?_
  refine wpSure_recvData [hi payload.length, lo payload.length] hport₁ fun w₂ _ hport₂ => ?_
  simp only [List.getD_cons_zero, List.getD_cons_succ, hsize]
  rw [if_neg (Nat.not_lt_of_le hlen)]
  refine wpSure_recvData payload hport₂ fun w₃ _ hport₃ => ?_
  refine wpSure_recvData (checksumBytes payload) hport₃ fun w₄ _ _ => ?_
  have hsum : be16 ((checksumBytes payload).getD 0 0) ((checksumBytes payload).getD 1 0) =
      GbridgeData.checksumData ⟨UInt8.ofNat payload.length, payload⟩ := by
    refine (be16_hi_lo _).trans (Nat.mod_eq_of_lt ?_)
    exact GbridgeData.checksumData_lt _
  simp only [hsum, ne_eq, not_true_eq_false, ↓reduceIte]
  refine ⟨⟨(), _, rfl⟩, ?_⟩
  rintro _ _ rfl
  rfl

end Stream

/-! ## 3. The calls of a run -/

/-- Behind the calls stands a list of those that have been made; they answer anything. -/
def noting : Serve (List SockCall) := fun c log r log' => c.Allows r ∧ log' = log ++ [c]

/-- The link is up and a request has been acknowledged, with these reads to come. -/
def acknowledged (packet before : List UInt8) (progress : Nat) (reads : List ReadRes) :
    World (List ReadRes) :=
  { g := requested packet before progress, port := reads }

/-- If the packet begins with SEND, a stream frame of at most `0x200` bytes follows it. -/
def Followed (packet payload : List UInt8) (reads : List ReadRes) : Prop :=
  packet.head? = some ProtMa.cmdSend → payload.length ≤ 0x200 ∧ streamReads payload <+: reads

/-- `gbridge_prot_ma_loop` makes the call that the packet encodes, once, and no other. -/
structure Obeys (payload packet : List UInt8) (w : World (List ReadRes)) : Prop where
  /-- In no moment of a run has another call been made, or two. -/
  only : ∀ p v, Reach (semFor noting) (gbridgeProtMaLoop, (w, [])) (p, v) →
    v.2.length ≤ 1 ∧ ∀ c ∈ v.2, Encodes payload packet c
  /-- The run gets to the call. -/
  reached : ∀ c, Encodes payload packet c →
    ∃ p v, Reach (semFor noting) (gbridgeProtMaLoop, (w, [])) (p, v) ∧ v.2 = [c]
  /-- No run ends without it. -/
  made : ∀ v, Eval (semFor noting) gbridgeProtMaLoop (w, []) () v →
    ∀ c, Encodes payload packet c → v.2 = [c]

section Calls

variable {payload : List UInt8} {w : World (List ReadRes)}

theorem noting_sample (c : SockCall) (log : List SockCall) :
    noting c log c.sample (log ++ [c]) :=
  ⟨c.allows_sample, rfl⟩

/-- What a request leads to, given that the stream it may need comes. -/
theorem needs_calls (hup : w.g.connected = true) {a : Ask}
    (hstream : ∀ conn addr, a = .send conn addr →
      payload.length ≤ 0x200 ∧ streamReads payload <+: w.port) :
    a.Needs noting (· = a.calls payload) [] w := by
  cases a with
  | nothing => rfl
  | call c =>
    rintro r y ⟨-, rfl⟩
    rfl
  | send conn addr =>
    obtain ⟨hlen, rest, hport⟩ := hstream conn addr rfl
    have hsure := wpSure_gbridgeRecvStream hup hlen hport.symm
    refine wpre_of_spec (S := Spec.sure (sem scripted)) (fun _ _ _ h => h.2)
      (wpre_weaken (wpre_mono ?_ hsure))
    rintro _ _ rfl
    rw [if_neg (Int.not_lt.mpr (Int.natCast_nonneg _))]
    rintro r y ⟨-, rfl⟩
    simp [Ask.calls]

/-- The call is come to. -/
theorem perform_reach (hup : w.g.connected = true) {a : Ask}
    (hstream : ∀ conn addr, a = .send conn addr →
      payload.length ≤ 0x200 ∧ streamReads payload <+: w.port) :
    ∃ p w', Reach (semFor noting) (a.perform, (w, [])) (p, (w', a.calls payload)) := by
  cases a with
  | nothing => exact ⟨_, w, .refl⟩
  | call c =>
    obtain ⟨p, hp⟩ := sock_reach noting (w := w) (noting_sample c [])
    exact ⟨p, w, hp⟩
  | send conn addr =>
    obtain ⟨hlen, rest, hport⟩ := hstream conn addr rfl
    have hframe : wpre (Spec.sure (semFor noting)) true (gbridgeRecvStream 0x200)
        (fun r v => r = ((payload.length : Int), payload) ∧ v.2 = []) (w, []) := by
      refine wpre_frame ?_ (notSock_gbridgeRecvStream _)
        (wpSure_gbridgeRecvStream hup hlen hport.symm)
      rintro β e Q w he ⟨⟨b, w', hs⟩, hall⟩
      refine ⟨⟨b, (w', []), (semFor_other he).mpr ⟨hs, rfl⟩⟩, ?_⟩
      rintro b ⟨w', log⟩ hs
      obtain ⟨hs, rfl⟩ := (semFor_other he).mp hs
      exact ⟨hall b w' hs, rfl⟩
    obtain ⟨⟨r, ⟨w', log⟩, he⟩, hall⟩ := sure_ends hframe
    obtain ⟨rfl, rfl⟩ := hall _ _ he
    have hcalls : (Ask.send conn addr).calls payload =
        [.send conn (payload.take (payload.length : Int).toNat) addr] := by simp [Ask.calls]
    rw [hcalls]
    obtain ⟨p, hp⟩ := sock_reach noting (w := w')
      (noting_sample (.send conn (payload.take (payload.length : Int).toNat) addr) [])
    refine ⟨p, w', (reach_bind _ (eval_reach he)).trans ?_⟩
    simp only [ret_bind, if_neg (Int.not_lt.mpr (Int.natCast_nonneg payload.length))]
    exact hp

theorem calls_reach (hup : w.g.connected = true) (hready : w.g.dataReady = true)
    (hstream : ∀ conn addr, asks w.g.data = .send conn addr →
      payload.length ≤ 0x200 ∧ streamReads payload <+: w.port) :
    ∃ p v, Reach (semFor noting) (gbridgeProtMaLoop, (w, [])) (p, v) ∧
      v.2 = (asks w.g.data).calls payload := by
  by_cases hsize : w.g.data.size.toNat < 1
  · rw [asks_empty (UInt8.toNat_inj.mp (Nat.lt_one_iff.mp hsize))]
    exact ⟨_, _, .refl, rfl⟩
  · obtain ⟨p, w', hp⟩ := perform_reach hup hstream
    obtain ⟨p', hp'⟩ := protMaLoop_reach hready hsize hp
    exact ⟨p', _, hp', rfl⟩

theorem Ask.calls_length (a : Ask) : (a.calls payload).length ≤ 1 := by
  cases a <;> simp [Ask.calls]

/-- Only a SEND asks for a stream. -/
theorem head_of_send {packet before : List UInt8} {conn : Nat} {addr : Option MobileAddr}
    (hlen : packet.length ≤ maxDataSize)
    (h : asks (inBuffer packet before) = .send conn addr) : packet.head? = some ProtMa.cmdSend := by
  cases packet with
  | nil =>
    rw [asks_empty rfl] at h
    exact absurd h (by simp)
  | cons cmd args =>
    by_cases hcmd : cmd = ProtMa.cmdSend
    · rw [hcmd]
      rfl
    · have hhead : (inBuffer (cmd :: args) before).buffer.getD 0 0 = cmd := rfl
      simp only [asks, hhead, if_neg hcmd] at h
      repeat' split at h
      all_goals exact absurd h (by simp)

end Calls

/-! ## 4. The result -/

section Result

variable {packet before payload : List UInt8} {progress : Nat} {reads : List ReadRes}

theorem Followed.stream (hlen : packet.length ≤ maxDataSize) (h : Followed packet payload reads)
    (conn : Nat) (addr : Option MobileAddr)
    (hasks : asks (inBuffer packet before) = .send conn addr) :
    payload.length ≤ 0x200 ∧ streamReads payload <+: reads :=
  h (head_of_send hlen hasks)

/-- The call is come to, whether the grammar has it or not. -/
theorem Followed.reach (before : List UInt8) (progress : Nat) (hlen : packet.length ≤ maxDataSize)
    (h : Followed packet payload reads) :
    ∃ p v, Reach (semFor noting)
        (gbridgeProtMaLoop, (acknowledged packet before progress reads, []))
      (p, v) ∧ v.2 = (asks (inBuffer packet before)).calls payload :=
  calls_reach (w := acknowledged packet before progress reads) rfl rfl (h.stream hlen)

/-- At any moment of a run the call asked for has been made or nothing has; at the end it has. -/
theorem Followed.calls (before : List UInt8) (progress : Nat) (hlen : packet.length ≤ maxDataSize)
    (h : Followed packet payload reads) :
    wpFor noting (fun log => log = [] ∨ log = (asks (inBuffer packet before)).calls payload)
      gbridgeProtMaLoop (fun _ v => v.2 = (asks (inBuffer packet before)).calls payload)
      (acknowledged packet before progress reads, []) := by
  have hneeds : (asks (inBuffer packet before)).Needs noting
      (· = (asks (inBuffer packet before)).calls payload) []
      (acknowledged packet before progress reads) := needs_calls rfl (h.stream hlen)
  exact wpFor_gbridgeProtMaLoop (.inl rfl) (fun _ h => .inr h) rfl hneeds

theorem Trailing.not_obeys (hlen : packet.length ≤ maxDataSize)
    (hfollowed : Followed packet payload reads) (h : Trailing packet) :
    ¬ Obeys payload packet (acknowledged packet before progress reads) := by
  intro hobeys
  obtain ⟨c, hcalls, hnot⟩ := h.calls payload before hlen
  obtain ⟨p, v, hreach, hlog⟩ := hfollowed.reach before progress hlen
  rw [hcalls] at hlog
  exact hnot ((hobeys.only p v hreach).2 c (by rw [hlog]; exact List.mem_singleton_self c))

end Result

/-- **The bridge follows the request grammar, exactly if the request is not a SEND with something
behind its address.**  The request is any packet of at most `GBRIDGE_MAX_DATA_SIZE` bytes, in front
of anything in the buffer. -/
theorem grammar_iff (packet before payload : List UInt8) (progress : Nat) (reads : List ReadRes)
    (hlen : packet.length ≤ maxDataSize) (hfollowed : Followed packet payload reads) :
    Obeys payload packet (acknowledged packet before progress reads) ↔ ¬ Trailing packet := by
  refine ⟨fun hobeys htrailing => htrailing.not_obeys hlen hfollowed hobeys, fun hno => ?_⟩
  have hwp := hfollowed.calls before progress hlen
  refine ⟨fun p v hreach => ?_, fun c hc => ?_, fun v he c hc => ?_⟩
  · rcases guarded_reach hwp (.inl rfl) hreach with hlog | hlog
    · rw [hlog]
      exact ⟨Nat.zero_le 1, fun c hc => absurd hc List.not_mem_nil⟩
    · rw [hlog]
      exact ⟨Ask.calls_length _, fun c hc => .of_calls hlen hno hc⟩
  · obtain ⟨p, v, hreach, hlog⟩ := hfollowed.reach before progress hlen
    exact ⟨p, v, hreach, hlog.trans (hc.calls hlen)⟩
  · have hlog : v.2 = (asks (inBuffer packet before)).calls payload :=
      wpre_eval (Q := fun _ v => v.2 = _) (Spec.guarded_sound _ _) hwp he
    exact hlog.trans (hc.calls hlen)

/-- A SEND of two bytes, in front of what an earlier packet left. -/
theorem grammar_send :
    Obeys [7, 8] [ProtMa.cmdSend, 0, MobileAddr.typeNone]
        (acknowledged [ProtMa.cmdSend, 0, MobileAddr.typeNone] [1, 2, 3] 0 (streamReads [7, 8])) ↔
      ¬ Trailing [ProtMa.cmdSend, 0, MobileAddr.typeNone] :=
  grammar_iff [ProtMa.cmdSend, 0, MobileAddr.typeNone] [1, 2, 3] [7, 8] 0 (streamReads [7, 8])
    (by decide) fun _ => ⟨by decide, List.prefix_refl _⟩

/-- **Not every packet is held to the grammar**: a SEND to nowhere in particular, with a byte behind
its address, and the stream of no bytes. -/
theorem grammar_fails :
    ¬ ∀ (packet before payload : List UInt8) (progress : Nat) (reads : List ReadRes),
      packet.length ≤ maxDataSize → Followed packet payload reads →
        Obeys payload packet (acknowledged packet before progress reads) := by
  intro h
  have hfollowed : Followed [ProtMa.cmdSend, 0, MobileAddr.typeNone, 7] [] (streamReads []) :=
    fun _ => ⟨by decide, List.prefix_refl _⟩
  have htrailing : Trailing [ProtMa.cmdSend, 0, MobileAddr.typeNone, 7] :=
    ⟨0, .none, [7], by simp, rfl⟩
  exact htrailing.not_obeys (by decide) hfollowed (h _ [] [] 0 _ (by decide) hfollowed)

end GBridge.Bridge
