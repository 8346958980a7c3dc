import LdapTgen.AuthTrouble

/-! The loop of `sendrecv_eap` against a server that may answer for ever. -/
namespace LdapTgen.EapLoop
open EapClient FastReauth AuthTrouble

/-- What a packet is answered with: `send_packet` fails or gives no packet, the packet carries an EAP-SIM
or an EAP-AKA message, or neither of them. -/
inductive Reply
  | failed
  | message (m : EapMessage)
  | other

def againLoop (e : EapRun) (replies : ℕ → Reply) : ℕ → ℕ → Exchange → Option (Exchange × ℤ)
  | 0, _, _ => none
  | fuel + 1, n, s =>
      match replies n with
      | .failed => some (s, 1)
      -- the results of `respond_eap_sim` and `respond_eap_aka` are not looked at
      | .message m => againLoop e replies fuel (n + 1) (e.receive s m)
      | .other => some (s, 0)

/-- The data of the user, the result, and the identifiers of the packets sent. -/
def sendrecvEap (e : EapRun) (data : FastAuth) (replies : ℕ → Reply) (fuel : ℕ) :
    Option (FastAuth × ℤ × List UInt8) :=
  (againLoop e replies fuel 0 (.init e.rep (tUserGetFastAuthData data e.keys))).map fun (s, rc) =>
    (if rc = 0 then tUserSetFastAuthData data s.client.keys s.client.frId else data, rc, s.sent)

def Reply.Ends : Reply → Prop
  | .message _ => False
  | _ => True

def Reply.result : Reply → ℤ
  | .other => 0
  | _ => 1

def messages (replies : ℕ → Reply) : ℕ → List EapMessage
  | 0 => []
  | n + 1 => match replies n with
      | .message m => messages replies n ++ [m]
      | _ => messages replies n

section Loop
variable {e : EapRun} {replies : ℕ → Reply} {data : FastAuth} {fuel n k : ℕ} {s : Exchange}

lemma sent_length_receive (m : EapMessage) : (e.receive s m).sent.length = s.sent.length + 1 := by
  cases m with
  | sim req input => simp [EapRun.receive, Exchange.sim, Exchange.again]
  | aka req input => simp [EapRun.receive, Exchange.aka, Exchange.again]

lemma message_of_not_ends {r : Reply} (h : ¬ r.Ends) : ∃ m, r = .message m := by
  cases r with
  | failed => exact absurd trivial h
  | message m => exact ⟨m, rfl⟩
  | other => exact absurd trivial h

lemma againLoop_ends (h : (replies n).Ends) (s : Exchange) :
    againLoop e replies (fuel + 1) n s = some (s, (replies n).result) := by
  cases hr : replies n with
  | failed => simp [againLoop, hr, Reply.result]
  | message m =>
    rw [hr] at h
    exact absurd h id
  | other => simp [againLoop, hr, Reply.result]

lemma againLoop_none (h : ∀ i, ¬ (replies i).Ends) (fuel n : ℕ) (s : Exchange) :
    againLoop e replies fuel n s = none := by
  induction fuel generalizing n s with
  | zero => rfl
  | succ fuel ih =>
    obtain ⟨m, hm⟩ := message_of_not_ends (h n)
    rw [againLoop, hm]
    exact ih (n + 1) _

/-- The exchange when the reply number `n` is read. -/
def exchangeAt (e : EapRun) (data : FastAuth) (replies : ℕ → Reply) (n : ℕ) : Exchange :=
  (messages replies n).foldl e.receive (.init e.rep (tUserGetFastAuthData data e.keys))

lemma exchangeAt_succ {m : EapMessage} (hm : replies n = .message m) :
    exchangeAt e data replies (n + 1) = e.receive (exchangeAt e data replies n) m := by
  simp [exchangeAt, messages, hm]

lemma exchangeAt_sent (h : ∀ i < n, ¬ (replies i).Ends) :
    (exchangeAt e data replies n).sent.length = n + 1 := by
  induction n with
  | zero => rfl
  | succ n ih =>
    obtain ⟨m, hm⟩ := message_of_not_ends (h n (Nat.lt_succ_self n))
    rw [exchangeAt_succ hm, sent_length_receive, ih fun i hi => h i (hi.trans (Nat.lt_succ_self n))]

lemma againLoop_first (hend : (replies k).Ends) (hbefore : ∀ i < k, ¬ (replies i).Ends) (hn : n ≤ k)
    (e : EapRun) (data : FastAuth) (fuel : ℕ) :
    againLoop e replies fuel n (exchangeAt e data replies n) =
      if k - n < fuel then some (exchangeAt e data replies k, (replies k).result) else none := by
  induction fuel generalizing n with
  | zero => rfl
  | succ fuel ih =>
    rcases hn.lt_or_eq with hlt | rfl
    · obtain ⟨m, hm⟩ := message_of_not_ends (hbefore n hlt)
      rw [againLoop, hm]
      dsimp only
      rw [← exchangeAt_succ hm, ih hlt]
      have hiff : k - (n + 1) < fuel ↔ k - n < fuel + 1 := by omega
      simp only [hiff]
    · rw [againLoop_ends hend, Nat.sub_self, if_pos (Nat.succ_pos fuel)]

lemma sendrecvEap_first (hend : (replies k).Ends) (hbefore : ∀ i < k, ¬ (replies i).Ends) (e : EapRun)
    (data : FastAuth) (fuel : ℕ) :
    sendrecvEap e data replies fuel =
      if k < fuel then some (AuthTrouble.sendrecvEap { e with messages := messages replies k }
        (replies k).result data, (replies k).result, (exchangeAt e data replies k).sent) else none := by
  have hloop := againLoop_first hend hbefore (Nat.zero_le k) e data fuel
  rw [Nat.sub_zero] at hloop
  rw [sendrecvEap]
  have hzero : exchangeAt e data replies 0 = .init e.rep (tUserGetFastAuthData data e.keys) := rfl
  rw [← hzero, hloop]
  split <;> rfl

end Loop

/-- `sendrecv_eap` returns if and only if the server comes to a packet without an EAP-SIM or EAP-AKA
message or no packet arrives; it has then sent one packet for each reply up to there. Otherwise it sends
more packets than any number. -/
theorem exchange_returns_iff (e : EapRun) (data : FastAuth) (replies : ℕ → Reply) :
    ((∃ fuel r, sendrecvEap e data replies fuel = some r) ↔ ∃ n, (replies n).Ends) ∧
      (∀ k, (replies k).Ends → (∀ i < k, ¬ (replies i).Ends) →
        ∃ data' sent, sent.length = k + 1 ∧
          ∀ fuel, sendrecvEap e data replies fuel =
            if k < fuel then some (data', (replies k).result, sent) else none) ∧
      ((∀ i, ¬ (replies i).Ends) → ∀ n, (exchangeAt e data replies n).sent.length = n + 1) := by
  refine ⟨⟨?_, ?_⟩, ?_, ?_⟩
  · rintro ⟨fuel, r, hr⟩
    by_contra hnone
    rw [sendrecvEap, againLoop_none fun i hi => hnone ⟨i, hi⟩] at hr
    cases hr
  · intro hex
    classical
    have hbefore : ∀ i < Nat.find hex, ¬ (replies i).Ends := fun i hi => Nat.find_min hex hi
    have hfirst := sendrecvEap_first (Nat.find_spec hex) hbefore e data (Nat.find hex + 1)
    rw [if_pos (Nat.lt_succ_self _)] at hfirst
    exact ⟨Nat.find hex + 1, _, hfirst⟩
  · intro k hend hbefore
    exact ⟨_, _, exchangeAt_sent hbefore, sendrecvEap_first hend hbefore e data⟩
  · intro h n
    exact exchangeAt_sent fun i _ => h i

/-- A packet with an EAP-SIM attribute, and nothing else that the client looks for. -/
def bareMessage : Reply :=
  .message (.sim { plainRequest .challenge with eapId := none, subtype := none } ⟨[], false⟩)

def challengeMessage : Reply := .message (.sim (plainRequest .challenge) ⟨[], false⟩)

/-- The server sends such packets, or challenges, for ever. -/
theorem endless_messages_never_return :
    (¬ ∃ fuel r, sendrecvEap noMessages ⟨[], [], none⟩ (fun _ => bareMessage) fuel = some r) ∧
    ¬ ∃ fuel r, sendrecvEap noMessages ⟨[], [], none⟩ (fun _ => challengeMessage) fuel = some r := by
  have hbare : ∀ i : ℕ, ¬ ((fun _ => bareMessage) i).Ends := fun _ => id
  have hchallenge : ∀ i : ℕ, ¬ ((fun _ => challengeMessage) i).Ends := fun _ => id
  constructor
  · rintro ⟨fuel, r, hr⟩
    rw [sendrecvEap, againLoop_none hbare] at hr
    cases hr
  · rintro ⟨fuel, r, hr⟩
    rw [sendrecvEap, againLoop_none hchallenge] at hr
    cases hr

end LdapTgen.EapLoop
