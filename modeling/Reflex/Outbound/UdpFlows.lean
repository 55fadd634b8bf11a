import Reflex.Outbound.Hy2Udp
import Reflex.Outbound.TuicUdp

namespace Reflex.Outbound

open RustStd Sessions

/-!
# UDP flows over QUIC

The Hysteria2 and the TUIC outbound carry all their UDP flows over one cached connection.  Neither
keeps the flows separate in every run: the tasks of all flows read from the one connection and none
compares the ID of a packet with its own, and later packets of a flow are not sent under its ID.

* `flows_separate` — runs in which each task happens to find what is for it, and no packet goes
  under another ID.
-/

/-- **When flows stay separate.** In every run of either outbound whose steps are guarded, with any
    number of flows and in any order of packets and datagrams: a flow sends under its own ID only,
    live flows have different IDs, and a reply goes to the flow whose ID it came under. -/
theorem flows_separate (c : Tuic.Credentials) :
    (∀ (events : List Hy2.Event) (s : Hy2.State),
      Transition.run Hy2.State.step {} events = some s →
      Transition.Guarded Hy2.State.step (fun s e => s.guard e = true) {} events →
      Separate s.ledger) ∧
    ∀ (events : List Tuic.Event) (s : Tuic.State),
      Transition.run (Tuic.State.step c) {} events = some s →
      Transition.Guarded (Tuic.State.step c) (fun s e => s.guard e = true) {} events →
      Separate s.ledger :=
  ⟨fun _ _ hrun hguard => Hy2.State.ledger_separate hrun hguard,
    fun _ _ hrun hguard => Tuic.State.ledger_separate hrun hguard⟩

/-- Two flows of Hysteria2, each of which gets the answer to its packet. -/
def answersHy2 : List Hy2.Event :=
  [.handleUdp (.domain "a".toList 53) [1] 0, .spawn 0 true,
    .handleUdp (.domain "b".toList 53) [2] 0, .spawn 1 true,
    .arrive (Hy2.buildUdpHeader 0 0 0 1 "a".toList ++ [3]), .receive 0 true,
    .arrive (Hy2.buildUdpHeader 2 0 0 1 "b".toList ++ [4]), .receive 1 true]

/-- A client of TUIC. -/
def someCredentials : Tuic.Credentials := ⟨Vector.replicate 16 1, Vector.replicate 32 2⟩

/-- The same two flows of TUIC, each with an answer to it. -/
def answersTuic : List Tuic.Event :=
  [.handleUdp (.domain "a".toList 53) [1], .spawn 0 true,
    .handleUdp (.domain "b".toList 53) [2], .spawn 1 true,
    .arrive (Tuic.buildUdpDatagram someCredentials 0 0 0 1 (.domain "a".toList 53) [3]),
    .receive 0 true,
    .arrive (Tuic.buildUdpDatagram someCredentials 1 0 0 1 (.domain "b".toList 53) [4]),
    .receive 1 true]

theorem flows_separate_answers :
    (∃ s, Transition.run Hy2.State.step {} answersHy2 = some s ∧
      s.replies = [(0, 0, [3]), (1, 2, [4])] ∧ Separate s.ledger) ∧
    ∃ s, Transition.run (Tuic.State.step someCredentials) {} answersTuic = some s ∧
      s.replies = [(0, 0, [3]), (1, 1, [4])] ∧ Separate s.ledger := by
  have hhy2 : (Transition.run Hy2.State.step {} answersHy2).any
      (fun s => s.replies == [(0, 0, [3]), (1, 2, [4])]) = true := by decide
  have htuic : (Transition.run (Tuic.State.step someCredentials) {} answersTuic).any
      (fun s => s.replies == [(0, 0, [3]), (1, 1, [4])]) = true := by decide
  obtain ⟨s, hs, hreplies⟩ := (Option.any_eq_true _ _).mp hhy2
  obtain ⟨t, ht, hreplies'⟩ := (Option.any_eq_true _ _).mp htuic
  refine ⟨⟨s, hs, eq_of_beq hreplies, ?_⟩, t, ht, eq_of_beq hreplies', ?_⟩
  · exact (flows_separate someCredentials).1 _ s hs (by decide)
  · exact (flows_separate someCredentials).2 _ t ht (by decide)

/-- The task of the second flow gets the answer to the first client, who then sends once more. -/
def strayHy2 : List Hy2.Event :=
  [.handleUdp (.domain "a".toList 53) [1] 0, .spawn 0 true,
    .handleUdp (.domain "b".toList 53) [2] 0, .spawn 1 true,
    .arrive (Hy2.buildUdpHeader 0 0 0 1 "a".toList ++ [3]), .receive 1 true, .upstream 0 [5] 0]

/-- The same with TUIC: the task of the second flow gets the answer to the first. -/
def strayTuic : List Tuic.Event :=
  [.handleUdp (.domain "a".toList 53) [1], .spawn 0 true,
    .handleUdp (.domain "b".toList 53) [2], .spawn 1 true,
    .arrive (Tuic.buildUdpDatagram someCredentials 0 0 0 1 (.domain "a".toList 53) [3]),
    .receive 1 true, .upstream 0 [5]]

/-- An answer under the ID of the first flow is handed to the second, and the second packet of the
    first flow is not sent under its ID. -/
theorem not_separate_stray :
    (∃ s, Transition.run Hy2.State.step {} strayHy2 = some s ∧
      s.ledger.given = [(1, 0)] ∧ s.ledger.sent = [(0, 0), (1, 2), (0, 1)] ∧
      ¬ Separate s.ledger) ∧
    ∃ s, Transition.run (Tuic.State.step someCredentials) {} strayTuic = some s ∧
      s.ledger.given = [(1, 0)] ∧ s.ledger.sent = [(0, 0), (1, 1), (0, 1)] ∧
      ¬ Separate s.ledger := by
  have hhy2 : (Transition.run Hy2.State.step {} strayHy2).any (fun s =>
      s.ledger.given == [(1, 0)] && s.ledger.sent == [(0, 0), (1, 2), (0, 1)] &&
        s.ledger.id 1 == some 2) = true := by decide
  have htuic : (Transition.run (Tuic.State.step someCredentials) {} strayTuic).any (fun s =>
      s.ledger.given == [(1, 0)] && s.ledger.sent == [(0, 0), (1, 1), (0, 1)] &&
        s.ledger.id 1 == some 1) = true := by decide
  obtain ⟨s, hs, hledger⟩ := (Option.any_eq_true _ _).mp hhy2
  obtain ⟨t, ht, hledger'⟩ := (Option.any_eq_true _ _).mp htuic
  simp only [Bool.and_eq_true, beq_iff_eq] at hledger hledger'
  obtain ⟨⟨hgiven, hsent⟩, hid⟩ := hledger
  obtain ⟨⟨hgiven', hsent'⟩, hid'⟩ := hledger'
  refine ⟨⟨s, hs, hgiven, hsent, fun h => ?_⟩, t, ht, hgiven', hsent', fun h => ?_⟩
  · -- the second flow has ID 2 and was given what carries ID 0
    have hown := h.given 1 0 (by rw [hgiven]; exact List.mem_singleton_self _)
    rw [hid] at hown
    exact absurd hown (by decide)
  · have hown := h.given 1 0 (by rw [hgiven']; exact List.mem_singleton_self _)
    rw [hid'] at hown
    exact absurd hown (by decide)

end Reflex.Outbound
