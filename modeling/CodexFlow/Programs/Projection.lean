import CodexFlow.Programs.Steps

/-!
# What the status reads from a journal

One fact more in a journal, and what it changes of the candidate, the evidence and the blocker that
the status of a node shows, and of the blocker that its candidate has.
-/

namespace CodexFlow.Programs

open Checked

variable {n n' : NodeProjection} {fact : Fact} {facts : List Fact} {c : String}
  {b b' : Option TypedBlocker} {m m' : Milestone} {id : String}

/-! ### One fact -/

theorem closeBlocker_of_ne (h : ∀ c gate r, fact ≠ .candidateBlockerResolved c gate r) :
    closeBlocker b fact = .ok b := by
  cases fact
  case candidateBlockerResolved c gate r => exact absurd rfl (h c gate r)
  all_goals rfl

namespace NodeProjection

/-- The blocker before a resolution closes it. -/
def openBlocker (n : NodeProjection) (fact : Fact) : Option TypedBlocker :=
  (((n.readCandidate fact).readEvidence fact).readTerminal fact).blocker

theorem read_ok (h : n.read fact = .ok n') :
    closeBlocker (n.openBlocker fact) fact = .ok n'.blocker ∧
      n'.candidate = fact.candidateSha?.or n.candidate ∧
      n'.evidenceSha256 = fact.evidenceSha256?.or n.evidenceSha256 := by
  simp only [read, bind_eq_ok, pure_eq_ok] at h
  obtain ⟨blocker, hblocker, rfl⟩ := h
  refine ⟨hblocker, ?_, ?_⟩
  · show ((n.readCandidate fact).readEvidence fact).candidate = _
    unfold readCandidate readEvidence
    cases fact.candidateSha? <;> cases fact.evidenceSha256? <;> rfl
  · show ((n.readCandidate fact).readEvidence fact).evidenceSha256 = _
    unfold readCandidate readEvidence
    cases fact.candidateSha? <;> cases fact.evidenceSha256? <;> rfl

theorem exists_read (h : closeBlocker (n.openBlocker fact) fact = .ok b) :
    ∃ n', n.read fact = .ok n' := by
  have hread : n.read fact = closeBlocker (n.openBlocker fact) fact >>= fun blocker =>
      pure ({ ((n.readCandidate fact).readEvidence fact).readTerminal fact with
        blocker := blocker }.readReview fact) := rfl
  rw [hread, h]
  exact ⟨_, rfl⟩

theorem openBlocker_candidate (hcandidate : fact.candidateSha? = some c)
    (hevidence : fact.evidenceSha256? = none) :
    n.openBlocker fact =
      fact.blocker?.or (if n.candidate = some c then n.blocker else none) := by
  simp [openBlocker, readCandidate, readEvidence, readTerminal, subjectMatches, hcandidate,
    hevidence]

end NodeProjection

/-! ### Journals -/

theorem projectFacts_append_singleton :
    projectFacts (facts ++ [fact]) = projectFacts facts >>= fun n => n.read fact := by
  unfold projectFacts
  rw [List.foldlM_append]
  exact bind_congr fun n => by rw [List.foldlM_cons]; exact bind_pure _

theorem projectFacts_record : projectFacts (Journal.record facts fact) =
    if fact ∈ facts then projectFacts facts else projectFacts facts >>= fun n => n.read fact := by
  unfold Journal.record
  split_ifs
  · rfl
  · exact projectFacts_append_singleton

theorem projectFacts_subject (h : projectFacts facts = .ok n) :
    n.candidate = programCandidateSha facts ∧
      n.evidenceSha256 = Journal.latest Fact.evidenceSha256? facts := by
  induction facts using List.reverseRecOn generalizing n with
  | nil =>
    obtain rfl := pure_eq_ok.1 h
    exact ⟨rfl, rfl⟩
  | append_singleton facts fact ih =>
    rw [projectFacts_append_singleton, bind_eq_ok] at h
    obtain ⟨n₀, hn₀, hread⟩ := h
    obtain ⟨hcandidate, hevidence⟩ := ih hn₀
    obtain ⟨-, hcandidate', hevidence'⟩ := NodeProjection.read_ok hread
    constructor
    · rw [hcandidate', hcandidate]
      exact Journal.latest_append_singleton.symm
    · rw [hevidence', hevidence]
      exact Journal.latest_append_singleton.symm

/-! ### Statuses -/

theorem Milestone.status_ok {s : NodeStatus} (h : m.status id = .ok s) :
    ∃ n, projectFacts m.lifecycle = .ok n ∧ (m.statusOf n id).check = .ok () ∧
      s = m.statusOf n id := by
  simp only [status, bind_eq_ok, pure_eq_ok] at h
  obtain ⟨n, hn, ⟨⟩, hcheck, rfl⟩ := h
  exact ⟨n, hn, hcheck, rfl⟩

theorem Milestone.status_of {n : NodeProjection} (h : projectFacts m.lifecycle = .ok n)
    (hcheck : (m.statusOf n id).check = .ok ()) : m.status id = .ok (m.statusOf n id) := by
  unfold status
  rw [h, ok_bind, hcheck]
  rfl

theorem NodeStatus.check_ok {s : NodeStatus} :
    s.check = .ok () ↔
      (s.outcome.kind = .runtimeEvidence → s.candidateSha = none ∧ s.integrated = false) ∧
        (s.outcome.kind = .commit → s.evidenceSha256 = none) := by
  simp only [check, checks_ok, Option.isNone_iff_eq_none]
  constructor
  · rintro ⟨hcandidate, hintegrated, hevidence⟩
    exact ⟨fun h => ⟨hcandidate h, hintegrated h⟩, hevidence⟩
  · rintro ⟨hruntime, hevidence⟩
    exact ⟨fun h => (hruntime h).1, fun h => (hruntime h).2, hevidence⟩

theorem nodeStatuses_ok {entries : List (String × Milestone)} {statuses : List NodeStatus} :
    nodeStatuses entries = .ok statuses ↔
      List.Forall₂ (fun entry s => entry.2.status entry.1 = .ok s) entries statuses := by
  induction entries generalizing statuses with
  | nil =>
    rw [nodeStatuses, pure_eq_ok, List.forall₂_nil_left_iff]
    exact eq_comm
  | cons entry entries ih =>
    simp only [nodeStatuses, bind_eq_ok, pure_eq_ok, ih, List.forall₂_cons_left_iff]
    constructor
    · rintro ⟨s, hs, rest, hrest, rfl⟩
      exact ⟨s, rest, hs, hrest, rfl⟩
    · rintro ⟨s, rest, hs, hrest, rfl⟩
      exact ⟨s, hs, rest, hrest, rfl⟩

namespace Program

variable {P : Program}

theorem readable_iff : P.Readable ↔
    ∀ id m, P.milestones.get? id = some m → ∃ s, m.status id = .ok s := by
  unfold Readable nodes
  constructor
  · rintro ⟨nodes, hnodes⟩ id m hm
    obtain ⟨s, -, hs⟩ :=
      LastMatch.mem_of_forall₂ (nodeStatuses_ok.1 hnodes) (Table.get?_eq_some.1 hm)
    exact ⟨s, hs⟩
  · intro h
    have hall : ∀ entry ∈ P.milestones.entries, ∃ s, entry.2.status entry.1 = .ok s :=
      fun entry hentry => h entry.1 entry.2 (Table.get?_eq_some.2 hentry)
    generalize P.milestones.entries = entries at hall ⊢
    induction entries with
    | nil => exact ⟨[], rfl⟩
    | cons entry entries ih =>
      obtain ⟨s, hs⟩ := hall entry List.mem_cons_self
      obtain ⟨rest, hrest⟩ := ih fun e he => hall e (List.mem_cons_of_mem _ he)
      exact ⟨s :: rest, by rw [nodeStatuses, hs, ok_bind, hrest]; rfl⟩

end Program

end CodexFlow.Programs
