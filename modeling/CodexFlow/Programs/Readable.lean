import CodexFlow.Programs.Currency
import CodexFlow.Programs.Projection

/-!
# When the status can be read

The status of a node is read from its whole journal, and an operation that does not read it again
may write a fact that the reader refuses: a commit candidate of a node that leaves evidence, or the
resolution of a blocker that the status does not show. Every other fact is about the subject that
the node has already.
-/

namespace CodexFlow.Programs

open Ledger (Time)
open Checked

variable {digests : Digests} {P P' P'' : Program} {m m' m'' : Milestone} {id c gate : String}
  {now : Time} {fact : Fact} {n n' : NodeProjection} {call : Call} {event : Option NewEvent}
  {resolution : BlockerResolution} {queue : QueueStates} {trunkHead : String}

/-! ### One milestone -/

namespace Milestone

/-- The facts are read as `n`, and its subject is of the kind of the node. -/
structure Reads (m : Milestone) (n : NodeProjection) : Prop where
  facts : projectFacts m.lifecycle = .ok n
  candidate : m.node.outcome.kind = .runtimeEvidence → m.statusCandidate n = none
  evidence : m.node.outcome.kind = .commit → n.evidenceSha256 = none

def Readable (m : Milestone) : Prop := ∃ n, m.Reads n

theorem integrated_of_runtime (h : m.node.outcome.kind = .runtimeEvidence) :
    m.integrated n = false := by
  unfold integrated
  cases houtcome : m.node.outcome with
  | noIntegration => rfl
  | git | alreadyIntegrated => rw [houtcome] at h; cases h

theorem statusOf_check : (m.statusOf n id).check = .ok () ↔
    (m.node.outcome.kind = .runtimeEvidence → m.statusCandidate n = none) ∧
      (m.node.outcome.kind = .commit → n.evidenceSha256 = none) := by
  rw [NodeStatus.check_ok]
  exact and_congr ⟨fun h hkind => (h hkind).1, fun h hkind => ⟨h hkind, integrated_of_runtime hkind⟩⟩
    Iff.rfl

theorem status_eq_ok {s : NodeStatus} :
    m.status id = .ok s ↔ ∃ n, m.Reads n ∧ s = m.statusOf n id := by
  constructor
  · intro h
    obtain ⟨n, hn, hcheck, rfl⟩ := status_ok h
    obtain ⟨hcandidate, hevidence⟩ := statusOf_check.1 hcheck
    exact ⟨n, ⟨hn, hcandidate, hevidence⟩, rfl⟩
  · rintro ⟨n, ⟨hn, hcandidate, hevidence⟩, rfl⟩
    exact status_of hn (statusOf_check.2 ⟨hcandidate, hevidence⟩)

theorem exists_status : (∃ s, m.status id = .ok s) ↔ m.Readable := by
  simp only [status_eq_ok]
  exact ⟨fun ⟨_, n, hn, _⟩ => ⟨n, hn⟩, fun ⟨n, hn⟩ => ⟨_, n, hn, rfl⟩⟩

theorem Reads.candidateSha (h : m.Reads n) (hkind : m.node.outcome.kind = .runtimeEvidence) :
    m.candidateSha = none := by
  have hnone := h.candidate hkind
  unfold statusCandidate at hnone
  rw [Option.or_eq_none_iff, (projectFacts_subject h.facts).1] at hnone
  exact hnone.1

/-- The status shows a blocker that the resolution closes, or its fact is there already. -/
def Resolvable (m : Milestone) (id c gate : String) (resolution : BlockerResolution) : Prop :=
  .candidateBlockerResolved c gate resolution ∈ m.lifecycle ∨
    (m.status id).toOption.any fun s => s.blocker.any (·.gateId = gate)

instance : Decidable (m.Resolvable id c gate resolution) := instDecidableOr

theorem Reads.resolvable_iff (h : m.Reads n) : m.Resolvable id c gate resolution ↔
    .candidateBlockerResolved c gate resolution ∈ m.lifecycle ∨
      n.blocker.any (·.gateId = gate) := by
  unfold Resolvable
  rw [status_eq_ok.2 ⟨n, h, rfl⟩]
  rfl

/-! ### Writing -/

/-- A fact whose subject the milestone has already leaves the blocker alone. -/
theorem openBlocker_self (hblocker : fact.blocker? = none)
    (hcandidate : fact.candidateSha? = none ∨ fact.candidateSha? = n.candidate)
    (hevidence : fact.evidenceSha256? = none ∨ fact.evidenceSha256? = n.evidenceSha256) :
    n.openBlocker fact = n.blocker := by
  have hread : n.readCandidate fact =
      { n with candidateDisposition := (n.readCandidate fact).candidateDisposition } := by
    unfold NodeProjection.readCandidate
    cases hc : fact.candidateSha? with
    | none => rfl
    | some c =>
      rw [hc] at hcandidate
      obtain hnone | hsame := hcandidate
      · cases hnone
      · simp only [← hsame, if_true]
  have hevidenceRead : ∀ n' : NodeProjection, n'.evidenceSha256 = n.evidenceSha256 →
      (n'.readEvidence fact).blocker = n'.blocker := by
    intro n' hn'
    unfold NodeProjection.readEvidence
    cases he : fact.evidenceSha256? with
    | none => rfl
    | some e =>
      rw [he] at hevidence
      obtain hnone | hsame := hevidence
      · cases hnone
      · simp only [hn', ← hsame, if_true]
  unfold NodeProjection.openBlocker NodeProjection.readTerminal
  rw [hblocker, Option.none_or, ite_self, hread]
  exact hevidenceRead _ rfl

theorem recordFact_of_mem (hmem : fact ∈ m.lifecycle) : m.recordFact fact = m := by
  unfold recordFact
  rw [Journal.record_of_mem hmem]

theorem facts_recordFact (hnew : fact ∉ m.lifecycle) (h : projectFacts m.lifecycle = .ok n) :
    projectFacts (m.recordFact fact).lifecycle = n.read fact := by
  rw [recordFact_lifecycle, projectFacts_record, if_neg hnew, h, ok_bind]

/-- The status still shows the blocker that it showed, and the same resolutions are there. -/
structure Quiet (m m' : Milestone) : Prop where
  reads : ∀ n, m.Reads n → ∃ n', m'.Reads n' ∧ n'.blocker = n.blocker
  back : m'.Readable → m.Readable
  resolved : ∀ c gate resolution, .candidateBlockerResolved c gate resolution ∈ m'.lifecycle ↔
    .candidateBlockerResolved c gate resolution ∈ m.lifecycle

namespace Quiet

theorem refl (m : Milestone) : m.Quiet m :=
  ⟨fun n hn => ⟨n, hn, rfl⟩, id, fun _ _ _ => Iff.rfl⟩

theorem trans (h : m.Quiet m') (h' : m'.Quiet m'') : m.Quiet m'' where
  reads n hn := by
    obtain ⟨n', hn', hblocker⟩ := h.reads n hn
    obtain ⟨n'', hn'', hblocker'⟩ := h'.reads n' hn'
    exact ⟨n'', hn'', hblocker'.trans hblocker⟩
  back := h.back ∘ h'.back
  resolved c gate resolution := (h'.resolved c gate resolution).trans (h.resolved c gate resolution)

/-- Only the journal and the integrations of evidence are read. -/
theorem of_rows (h : m.Quiet m') (hnode : m''.node = m'.node)
    (hlifecycle : m''.lifecycle = m'.lifecycle)
    (hintegrations : m'.node.outcome.kind = .runtimeEvidence →
      m''.integrations = m'.integrations) : m.Quiet m'' := by
  have hreads : ∀ n, m''.Reads n ↔ m'.Reads n := by
    intro n
    have hcandidate : m'.node.outcome.kind = .runtimeEvidence →
        m''.statusCandidate n = m'.statusCandidate n := by
      intro hkind
      unfold statusCandidate newestIntegration
      rw [hintegrations hkind]
    constructor
    · rintro ⟨hfacts, hnone, hevidence⟩
      rw [hnode] at hnone hevidence
      exact ⟨hlifecycle ▸ hfacts, fun hkind => hcandidate hkind ▸ hnone hkind, hevidence⟩
    · rintro ⟨hfacts, hnone, hevidence⟩
      rw [← hnode] at hnone hevidence hcandidate
      exact ⟨hlifecycle ▸ hfacts, fun hkind => hcandidate hkind ▸ hnone hkind, hevidence⟩
  exact h.trans ⟨fun n hn => ⟨n, (hreads n).2 hn, rfl⟩, fun ⟨n, hn⟩ => ⟨n, (hreads n).1 hn⟩,
    fun _ _ _ => by rw [hlifecycle]⟩

theorem moveTo (h : m.Quiet m') (s : WorkflowState) : m.Quiet (m'.moveTo s) :=
  h.of_rows rfl rfl fun _ => rfl

theorem recordFact (hblocker : fact.blocker? = none)
    (hresolve : ∀ c gate resolution, fact ≠ .candidateBlockerResolved c gate resolution)
    (hcandidate : fact.candidateSha? = none ∨ fact.candidateSha? = m.candidateSha)
    (hevidence : fact.evidenceSha256? = none ∨
      fact.evidenceSha256? = Journal.latest Fact.evidenceSha256? m.lifecycle) :
    m.Quiet (m.recordFact fact) := by
  have hresolved : ∀ c gate resolution,
      .candidateBlockerResolved c gate resolution ∈ (m.recordFact fact).lifecycle ↔
        .candidateBlockerResolved c gate resolution ∈ m.lifecycle := by
    intro c gate resolution
    rw [recordFact_lifecycle, Journal.mem_record]
    exact or_iff_left (hresolve c gate resolution).symm
  by_cases hmem : fact ∈ m.lifecycle
  · rw [recordFact_of_mem hmem]
    exact .refl m
  -- The facts before it are read, and it is read after them, with the same subject.
  have hread : ∀ n, projectFacts m.lifecycle = .ok n → ∃ n', n.read fact = .ok n' ∧
      n'.blocker = n.blocker ∧ n'.candidate = n.candidate ∧
        n'.evidenceSha256 = n.evidenceSha256 := by
    intro n hn
    obtain ⟨hc, he⟩ := projectFacts_subject hn
    rw [Milestone.candidateSha, ← hc] at hcandidate
    rw [← he] at hevidence
    obtain ⟨n', hn'⟩ := NodeProjection.exists_read (n := n) (closeBlocker_of_ne hresolve)
    obtain ⟨hclose, hc', he'⟩ := NodeProjection.read_ok hn'
    rw [openBlocker_self hblocker hcandidate hevidence, closeBlocker_of_ne hresolve] at hclose
    refine ⟨n', hn', (Except.ok.inj hclose).symm, hc'.trans ?_, he'.trans ?_⟩
    · obtain hnone | hsame := hcandidate
      · rw [hnone, Option.none_or]
      · rw [hsame, Option.or_self]
    · obtain hnone | hsame := hevidence
      · rw [hnone, Option.none_or]
      · rw [hsame, Option.or_self]
  have hstatus : ∀ {n n' : NodeProjection}, n'.candidate = n.candidate →
      (m.recordFact fact).statusCandidate n' = m.statusCandidate n := by
    intro n n' hsame
    unfold statusCandidate
    rw [hsame]
    rfl
  refine ⟨fun n hn => ?_, ?_, hresolved⟩
  · obtain ⟨n', hn', hsame, hc, he⟩ := hread n hn.facts
    exact ⟨n', ⟨(facts_recordFact hmem hn.facts).trans hn',
      fun hkind => (hstatus hc).trans (hn.candidate hkind),
      fun hkind => he.trans (hn.evidence hkind)⟩, hsame⟩
  · rintro ⟨n', hn'⟩
    have hfacts := hn'.facts
    rw [recordFact_lifecycle, projectFacts_record, if_neg hmem, bind_eq_ok] at hfacts
    obtain ⟨n, hn, hlast⟩ := hfacts
    obtain ⟨n₁, hn₁, -, hc, he⟩ := hread n hn
    obtain rfl := Except.ok.inj (hn₁.symm.trans hlast)
    exact ⟨n, hn, fun hkind => (hstatus hc).symm.trans (hn'.candidate hkind),
      fun hkind => he.symm.trans (hn'.evidence hkind)⟩

end Quiet

theorem evidenceSha256_of_subject {s : Subject} (h : m.subject = some s) :
    s.evidenceSha256? = none ∨
      s.evidenceSha256? = Journal.latest Fact.evidenceSha256? m.lifecycle := by
  unfold subject programSubject at h
  generalize m.lifecycle = facts at *
  induction facts using List.reverseRecOn with
  | nil => cases h
  | append_singleton facts fact ih =>
    rw [Journal.latest_append_singleton] at h ⊢
    unfold Fact.subject? at h
    cases hc : fact.candidateSha? with
    | some c =>
      rw [hc] at h
      obtain rfl := Option.some.inj h
      exact .inl rfl
    | none =>
      rw [hc] at h
      cases he : fact.evidenceSha256? with
      | some e =>
        rw [he] at h
        obtain rfl := Option.some.inj h
        exact .inr rfl
      | none =>
        rw [he] at h
        exact ih h

theorem Quiet.promote {s : Subject} (ids : List String) (hs : m.subject = some s) :
    m.Quiet (m.promote s ids) := by
  unfold Milestone.promote
  split_ifs
  · exact .refl m
  · exact .recordFact rfl (fun _ _ _ => nofun) (candidateSha_of_subject hs)
      (evidenceSha256_of_subject hs)

theorem subject_promote {s : Subject} (ids : List String) (hs : m.subject = some s) :
    (m.promote s ids).subject = some s := by
  have hfact : (Fact.promotionAccepted s ids).subject? = some s := by
    obtain ⟨kind, digest⟩ := s
    cases kind <;> rfl
  unfold Milestone.promote
  split_ifs
  · exact hs
  · unfold subject programSubject
    rw [recordFact_lifecycle, Journal.latest_record, hfact]
    split_ifs
    · exact hs
    · rfl

/-- Closing a node writes the promotion of the subject that the milestone has. -/
theorem Quiet.closes {s : Subject} {ids : List String} (h : m.Quiet m')
    (hs : m'.subject = some s)
    (hclose : P.Closes digests id { subject := s, reviewIds := ids } now m' m'') : m.Quiet m'' := by
  obtain ⟨closed, hclosed, rfl⟩ := hclose.closed
  have hrows := Program.closeOutcome_state hclosed
  have hclosing : m.Quiet closed := by
    rw [hrows]
    exact h.of_rows rfl rfl fun _ => rfl
  have hsubject : closed.subject = some s := by
    rw [hrows]
    exact hs
  exact (hclosing.trans (.promote ids hsubject)).moveTo _

/-- The status of a milestone after a fact is read if the fact is about a subject of the kind of the
node and resolves nothing but an open blocker. -/
theorem Reads.recordFact_iff (h : m.Reads n) (hevidence : fact.evidenceSha256? = none)
    (hnew : fact ∉ m.lifecycle) : (m.recordFact fact).Readable ↔
      (m.node.outcome.kind = .runtimeEvidence → fact.candidateSha? = none) ∧
        ∃ b, closeBlocker (n.openBlocker fact) fact = .ok b := by
  constructor
  · rintro ⟨n', hn'⟩
    have hread := (facts_recordFact hnew h.facts).symm.trans hn'.facts
    obtain ⟨hclose, hc, -⟩ := NodeProjection.read_ok hread
    refine ⟨fun hkind => ?_, _, hclose⟩
    have hnone := hn'.candidate hkind
    unfold statusCandidate at hnone
    rw [hc, Option.or_eq_none_iff, Option.or_eq_none_iff] at hnone
    exact hnone.1.1
  · rintro ⟨hcandidate, b, hb⟩
    obtain ⟨n', hn'⟩ := NodeProjection.exists_read hb
    obtain ⟨-, hc, he⟩ := NodeProjection.read_ok hn'
    refine ⟨n', (facts_recordFact hnew h.facts).trans hn', fun hkind => ?_, fun hkind => ?_⟩
    · have hnone := h.candidate hkind
      unfold statusCandidate at hnone ⊢
      rw [hc, hcandidate hkind, Option.none_or]
      exact hnone
    · rw [he, hevidence, Option.none_or]
      exact h.evidence hkind

theorem Reads.recordCandidate_iff (h : m.Reads n) :
    (m.recordFact (.candidateRecorded c)).Readable ↔ m.node.outcome.kind = .commit := by
  have hkind : m.node.outcome.kind = .commit ↔ m.node.outcome.kind ≠ .runtimeEvidence := by
    cases m.node.outcome.kind <;> decide
  by_cases hmem : .candidateRecorded c ∈ m.lifecycle
  · refine iff_of_true ⟨n, (recordFact_of_mem hmem).symm ▸ h⟩ (hkind.2 fun hruntime => ?_)
    have hnone := Journal.latest_eq_none.1 (h.candidateSha hruntime) _ hmem
    cases hnone
  · rw [h.recordFact_iff rfl hmem, hkind]
    constructor
    · rintro ⟨hfits, -⟩ hruntime
      cases hfits hruntime
    · exact fun hne => ⟨fun hruntime => absurd hruntime hne, _, rfl⟩

theorem Reads.resolve_iff (h : m.Reads n) (hc : m.candidateSha = some c) :
    (m.recordFact (.candidateBlockerResolved c gate resolution)).Readable ↔
      m.Resolvable id c gate resolution := by
  rw [h.resolvable_iff]
  by_cases hmem : .candidateBlockerResolved c gate resolution ∈ m.lifecycle
  · exact iff_of_true ⟨n, (recordFact_of_mem hmem).symm ▸ h⟩ (.inl hmem)
  have hcandidate : n.candidate = some c := (projectFacts_subject h.facts).1.trans hc
  have hopen : n.openBlocker (.candidateBlockerResolved c gate resolution) = n.blocker := by
    rw [NodeProjection.openBlocker_candidate rfl rfl, if_pos hcandidate]
    rfl
  rw [h.recordFact_iff rfl hmem, hopen, or_iff_right hmem]
  simp only [closeBlocker, steps_ok, exists_eq_right']
  refine and_iff_right fun hruntime => ?_
  rw [h.candidateSha hruntime] at hc
  cases hc

/-- Every other act that ends without a status keeps the one that could be read before. -/
theorem Step.quiet {act : Act} (h : m.Step digests P id now act m') (hreads : act.reads = false)
    (hrecord : ∀ id c, act ≠ .call (.recordCandidate id c))
    (hresolve : ∀ id c gate resolution,
      act ≠ .action (.resolveCandidateBlocker id c gate resolution)) : m.Quiet m' := by
  cases h with
  | rests _ _ h => exact (Quiet.refl m).of_rows h.node h.lifecycle fun _ => h.integrations
  | records c => exact absurd rfl (hrecord id c)
  | reviews q hkind hsubject =>
    exact .recordFact rfl (fun _ _ _ => nofun) (candidateSha_of_subject hsubject)
      (evidenceSha256_of_subject hsubject)
  | repairs s findings hkind hsubject =>
    refine ((Quiet.refl m).moveTo _).trans (.recordFact rfl (fun _ _ _ => nofun) ?_ (.inl rfl))
    exact candidateSha_of_subject (m := m.moveTo _) hsubject
  | resolves c gate resolution => exact absurd rfl (hresolve id c gate resolution)
  | promotes s ids hkind hsubject => exact (Quiet.promote ids hsubject).moveTo _
  | promotesClosed s ids hkind hsubject => exact .promote ids hsubject
  | promotesAdopted s ids m' hkind hsubject hadopted hcloses =>
    exact (Quiet.promote ids hsubject).closes (subject_promote ids hsubject) hcloses
  | authorizes c strategy hcandidate hgit =>
    refine (Quiet.refl m).of_rows rfl rfl fun hkind => ?_
    cases houtcome : m.node.outcome <;> rw [houtcome] at hgit hkind <;> contradiction
  | affects actionId effectId state =>
    exact .recordFact rfl (fun _ _ _ => nofun) (.inl rfl) (.inl rfl)
  | _ => cases hreads

end Milestone

/-! ### One program -/

namespace Program

theorem readable_iff_milestones : P.Readable ↔ P.AllMilestones Milestone.Readable := by
  rw [readable_iff]
  exact forall₃_congr fun _ _ _ => Milestone.exists_status

def Quiet (P P' : Program) : Prop :=
  ∀ id, Option.Rel Milestone.Quiet (P.milestones.get? id) (P'.milestones.get? id)

namespace Quiet

theorem of_same (h : P'.milestones = P.milestones) : P.Quiet P' := by
  intro id
  rw [h]
  cases P.milestones.get? id with
  | none => exact .none
  | some m => exact .some (.refl m)

theorem trans (h : P.Quiet P') (h' : P'.Quiet P'') : P.Quiet P'' := by
  intro id
  have hid := h id
  have hid' := h' id
  cases hm : P.milestones.get? id with
  | none =>
    rw [hm] at hid
    generalize P'.milestones.get? id = row at hid hid'
    cases hid
    exact hid'
  | some m =>
    rw [hm] at hid
    generalize P'.milestones.get? id = row, P''.milestones.get? id = row'' at hid hid' ⊢
    cases hid with
    | some hquiet =>
      cases hid' with
      | some hquiet' => exact .some (hquiet.trans hquiet')

theorem some_left (h : P.Quiet P') (hm : P.milestones.get? id = some m) :
    ∃ m', P'.milestones.get? id = some m' ∧ m.Quiet m' := by
  have hid := h id
  rw [hm] at hid
  generalize P'.milestones.get? id = row at hid
  cases hid with
  | some hquiet => exact ⟨_, rfl, hquiet⟩

theorem some_right (h : P.Quiet P') (hm : P'.milestones.get? id = some m') :
    ∃ m, P.milestones.get? id = some m ∧ m.Quiet m' := by
  have hid := h id
  rw [hm] at hid
  generalize P.milestones.get? id = row at hid
  cases hid with
  | some hquiet => exact ⟨_, rfl, hquiet⟩

theorem readable_iff (h : P.Quiet P') : P'.Readable ↔ P.Readable := by
  rw [readable_iff_milestones, readable_iff_milestones]
  constructor
  · intro hall id m hm
    obtain ⟨m', hm', hquiet⟩ := h.some_left hm
    exact hquiet.back (hall id m' hm')
  · intro hall id m' hm'
    obtain ⟨m, hm, hquiet⟩ := h.some_right hm'
    obtain ⟨n, hn⟩ := hall id m hm
    obtain ⟨n', hn', -⟩ := hquiet.reads n hn
    exact ⟨n', hn'⟩

end Quiet

theorem Step.quiet {act : Act} (h : P.Step digests now act P') (hreads : act.reads = false)
    (hrecord : ∀ id c, act ≠ .call (.recordCandidate id c))
    (hresolve : ∀ id c gate resolution,
      act ≠ .action (.resolveCandidateBlocker id c gate resolution)) : P.Quiet P' := by
  obtain hsame | ⟨id, m, m', hm, hset, hstep⟩ := h.milestones
  · exact .of_same hsame
  intro other
  rw [hset]
  by_cases hother : other = id
  · subst hother
    rw [hm, Table.get?_set_self hm]
    exact .some (hstep.quiet hreads hrecord hresolve)
  · rw [Table.get?_set_ne _ hother]
    exact Quiet.of_same rfl other

/-- One milestone changes, and the others could be read before. -/
theorem readable_set (hP : P.Readable) (hm : P.milestones.get? id = some m)
    (hset : P'.milestones = P.milestones.set id m') : P'.Readable ↔ m'.Readable := by
  rw [readable_iff_milestones] at hP ⊢
  exact ⟨fun h => h id m' (hset ▸ Table.get?_set_self hm m'), hP.set hm hset⟩

/-! ### Calls -/

def Admits (P : Program) : Call → Prop
  | .recordCandidate id _ => (P.milestones.get? id).all (·.node.outcome.kind = .commit)
  | _ => True

instance (P : Program) (call : Call) : Decidable (P.Admits call) := by
  cases call <;> unfold Admits <;> infer_instance

theorem run_readable (hP : P.Readable) (h : P.run digests now call = .ok (P', event)) :
    P'.Readable ↔ P.Admits call := by
  have hstep := run_step h
  cases call with
  | recordCandidate id c =>
    have hall := readable_iff_milestones.1 hP
    obtain ⟨-, ⟨rfl, hnone⟩ | ⟨m, hm, ⟨rfl, -, hc, -⟩ | ⟨-, rfl, -⟩⟩⟩ := recordCandidate_ok h
    · refine iff_of_true hP ?_
      dsimp only [Admits]
      rw [hnone]
      rfl
    · obtain ⟨n, hn⟩ := hall id m hm
      refine iff_of_true hP ?_
      dsimp only [Admits]
      rw [hm, Option.all_some, decide_eq_true_eq]
      cases hkind : m.node.outcome.kind with
      | commit => rfl
      | runtimeEvidence =>
        rw [hn.candidateSha hkind] at hc
        cases hc
    · obtain ⟨n, hn⟩ := hall id m hm
      rw [readable_set hP hm rfl, hn.recordCandidate_iff]
      dsimp only [Admits]
      rw [hm, Option.all_some, decide_eq_true_eq]
  | attention | review | claimDispatch | claimReview | claimRepair | move =>
    have hquiet := hstep.quiet rfl (fun _ _ => nofun) fun _ _ _ _ => nofun
    exact iff_of_true (hquiet.readable_iff.2 hP) trivial
  | _ => exact iff_of_true (hstep.readable rfl) trivial

/-! ### Bundles -/

def AdmitsAction (P : Program) : ProgramAction → Prop
  | .resolveCandidateBlocker id c gate resolution =>
    (P.milestones.get? id).all fun m => m.Resolvable id c gate resolution
  | _ => True

instance (P : Program) (action : ProgramAction) : Decidable (P.AdmitsAction action) := by
  cases action <;> unfold AdmitsAction <;> infer_instance

theorem Quiet.admitsAction_iff (h : P.Quiet P') (hP : P.Readable) {action : ProgramAction} :
    P'.AdmitsAction action ↔ P.AdmitsAction action := by
  cases action with
  | resolveCandidateBlocker id c gate resolution =>
    dsimp only [AdmitsAction]
    cases hm : P.milestones.get? id with
    | none =>
      cases hm' : P'.milestones.get? id with
      | none => rfl
      | some m' =>
        obtain ⟨m, hsome, -⟩ := h.some_right hm'
        rw [hm] at hsome
        cases hsome
    | some m =>
      obtain ⟨m', hm', hquiet⟩ := h.some_left hm
      obtain ⟨n, hn⟩ := readable_iff_milestones.1 hP id m hm
      obtain ⟨n', hn', hblocker⟩ := hquiet.reads n hn
      rw [hm', Option.all_some, Option.all_some, decide_eq_true_eq, decide_eq_true_eq,
        hn.resolvable_iff, hn'.resolvable_iff, hquiet.resolved, hblocker]
  | _ => exact Iff.rfl

/-- Actions beside a resolution keep every status. -/
theorem actions_quiet {actions : List ProgramAction}
    (hkinds : ∀ action ∈ actions, action.kind ≠ .resolveCandidateBlocker)
    (h : actions.foldlM (applyAction digests queue trunkHead now) P = .ok P') : P.Quiet P' := by
  refine applyActions_induction (J := P.Quiet) (fun action hmem Q Q' hQ haction => hQ.trans ?_) h
    (.of_same rfl)
  refine (applyAction_step haction).quiet rfl (fun _ _ => nofun) fun id c gate resolution heq => ?_
  rw [Act.action.inj heq] at hmem
  exact hkinds _ hmem rfl

theorem commitActions_readable {b : ProgramBundle} (hP : P.Readable)
    (hkinds : (b.actions.map (·.kind)).Nodup)
    (h : P.commitActions digests queue b now = .ok P') :
    P'.Readable ↔ ∀ action ∈ b.actions, P.AdmitsAction action := by
  simp only [commitActions, actionEffects, bind_eq_ok, pure_eq_ok] at h
  obtain ⟨P₃, ⟨-, -, hactions⟩, rfl⟩ := h
  have hrow : Program.Readable { P₃ with
      revision := P.revision + 1
      state := if P₃.state = .registered then .running else P₃.state } ↔ P₃.Readable :=
    Quiet.readable_iff (Quiet.of_same rfl)
  rw [hrow]
  by_cases hresolves : ∃ action ∈ b.actions, action.kind = .resolveCandidateBlocker
  · obtain ⟨action, hmem, hkind⟩ := hresolves
    obtain ⟨before, after, hsplit⟩ := List.append_of_mem hmem
    rw [hsplit] at hkinds hactions ⊢
    rw [List.map_append, List.map_cons, List.nodup_middle, List.nodup_cons, hkind] at hkinds
    have hother : ∀ a ∈ before ++ after, a.kind ≠ .resolveCandidateBlocker := by
      rintro a ha heq
      refine hkinds.1 ?_
      rw [← List.map_append, ← heq]
      exact List.mem_map_of_mem ha
    rw [List.foldlM_append, bind_eq_ok] at hactions
    obtain ⟨P₁, hbefore, hactions⟩ := hactions
    rw [List.foldlM_cons, bind_eq_ok] at hactions
    obtain ⟨P₂, haction, hafter⟩ := hactions
    have hquiet := actions_quiet (fun a ha => hother a (List.mem_append_left _ ha)) hbefore
    have hquiet' := actions_quiet (fun a ha => hother a (List.mem_append_right _ ha)) hafter
    have hP₁ := hquiet.readable_iff.2 hP
    have hresolved : P₂.Readable ↔ P₁.AdmitsAction action := by
      cases action with
      | resolveCandidateBlocker id c gate resolution =>
        obtain ⟨m, b, hm, hc, -, -, rfl⟩ := resolve_ok haction
        obtain ⟨n, hn⟩ := readable_iff_milestones.1 hP₁ id m hm
        have hresolve : _ ↔ m.Resolvable id c gate resolution := hn.resolve_iff hc
        rw [readable_set hP₁ hm rfl, hresolve]
        dsimp only [AdmitsAction]
        rw [hm, Option.all_some, decide_eq_true_eq]
      | _ => cases hkind
    have hadmits : ∀ a : ProgramAction, a.kind ≠ .resolveCandidateBlocker → P.AdmitsAction a := by
      intro a ha
      cases a with
      | resolveCandidateBlocker => exact absurd rfl ha
      | _ => trivial
    rw [hquiet'.readable_iff, hresolved, hquiet.admitsAction_iff hP]
    constructor
    · intro h a ha
      obtain ha | ha := List.mem_append.1 ha
      · exact hadmits a (hother a (List.mem_append_left _ ha))
      · obtain rfl | ha := List.mem_cons.1 ha
        · exact h
        · exact hadmits a (hother a (List.mem_append_right _ ha))
    · exact fun h => h action (List.mem_append_right _ List.mem_cons_self)
  · have hother : ∀ a ∈ b.actions, a.kind ≠ .resolveCandidateBlocker :=
      fun a ha heq => hresolves ⟨a, ha, heq⟩
    refine iff_of_true ((actions_quiet hother hactions).readable_iff.2 hP) fun a ha => ?_
    have hkind := hother a ha
    cases a with
    | resolveCandidateBlocker => exact absurd rfl hkind
    | _ => trivial

theorem recordActionEffect_readable {actionId effectId : String} {b : ProgramBundle}
    {state : EffectState} {isNew : Bool} (hP : P.Readable)
    (h : P.recordActionEffect actionId effectId b state = .ok (P', isNew)) : P'.Readable := by
  have hwritten : ∀ {id m}, P.milestones.get? id = some m →
      (m.recordFact (.programEffect actionId effectId state)).Readable := by
    intro id m hm
    obtain ⟨n, hn⟩ := readable_iff_milestones.1 hP id m hm
    have hquiet : m.Quiet (m.recordFact (.programEffect actionId effectId state)) :=
      .recordFact rfl (fun _ _ _ => nofun) (.inl rfl) (.inl rfl)
    obtain ⟨n', hn', -⟩ := hquiet.reads n hn
    exact ⟨n', hn'⟩
  obtain rfl | ⟨id, m, hm, rfl | rfl⟩ := recordActionEffect_ok h
  · exact hP
  · exact (readable_set hP hm rfl).2 (hwritten hm)
  · exact (readable_set hP hm rfl).2 (hwritten hm)

end Program

/-! ### Every run -/

namespace System

variable {host : Host} {S S' : System} {op : Op}

/-- The status of every program can be read, and no subject is of another kind than its node. -/
structure Legible (S : System) : Prop where
  readable : ∀ programId P, S.programs.get? programId = some P → P.Readable
  candidate : ∀ programId id m, S.milestone? programId id = some m →
    m.node.outcome.kind = .runtimeEvidence → m.candidateSha = none
  evidence : ∀ programId id m, S.milestone? programId id = some m →
    m.node.outcome.kind = .commit → Journal.latest Fact.evidenceSha256? m.lifecycle = none

theorem legible_iff :
    S.Legible ↔ ∀ programId P, S.programs.get? programId = some P → P.Readable := by
  refine ⟨Legible.readable, fun h => ⟨h, ?_, ?_⟩⟩
  · intro programId id m hm hkind
    obtain ⟨P, hP, hm⟩ := milestone?_eq_some.1 hm
    obtain ⟨n, hn⟩ := Program.readable_iff_milestones.1 (h programId P hP) id m hm
    exact hn.candidateSha hkind
  · intro programId id m hm hkind
    obtain ⟨P, hP, hm⟩ := milestone?_eq_some.1 hm
    obtain ⟨n, hn⟩ := Program.readable_iff_milestones.1 (h programId P hP) id m hm
    rw [← (projectFacts_subject hn.facts).2]
    exact hn.evidence hkind

/-- What the statuses of the programs ask of an operation. -/
def Admits (S : System) : Op → Prop
  | .call programId call _ => ∀ P, S.programs.get? programId = some P → P.Admits call
  | .submit q _ => ∀ P, S.programs.get? q.bundle.programId = some P →
    (∃ event, q.bundle.decisionId = .program event ∧ S.isCommitted event) ∨
      ∀ action ∈ q.bundle.actions, P.AdmitsAction action
  | _ => True

theorem Legible.set (hS : S.Legible) (hP : S.programs.get? id = some P) {L : Ledger}
    {actions : List CommittedAction} :
    System.Legible { S.setProgram id P' with ledger := L, actions := actions } ↔ P'.Readable := by
  rw [legible_iff] at hS ⊢
  constructor
  · exact fun h => h id P' (Table.get?_set_self hP P')
  · intro h other Q hQ
    by_cases hother : other = id
    · subst hother
      obtain rfl := Option.some.inj ((Table.get?_set_self hP P').symm.trans hQ)
      exact h
    · exact hS other Q ((Table.get?_set_ne _ hother _).symm.trans hQ)

theorem ProgramBundle.check_kinds {b : ProgramBundle} (h : b.check = .ok ()) :
    (b.actions.map (·.kind)).Nodup := by
  simp only [ProgramBundle.check, checks_ok] at h
  obtain ⟨-, -, -, hkinds, -⟩ := h
  exact hkinds.1

theorem registered_readable {g : ProgramGraph} (h : g.register = .ok P) : P.Readable :=
  Program.readable_iff_milestones.2 (.registered (fun _ => ⟨{}, rfl, fun _ => rfl, fun _ => rfl⟩) h)

/-- A committed operation leaves every status readable exactly when it is admitted. -/
theorem perform_legible (hS : S.Legible) (h : S.perform host op = .ok S') :
    S'.Legible ↔ S.Admits op := by
  obtain ⟨-, hbody, -⟩ := perform_ok.1 h
  have hledger : ∀ {L : Ledger}, System.Legible { S with ledger := L } := by
    intro L
    rw [legible_iff] at hS ⊢
    exact hS
  cases op with
  | call programId call now =>
    simp only [body, callProgram, bind_eq_ok, program_eq_ok, pure_eq_ok] at hbody
    obtain ⟨P, hP, ⟨P', event⟩, hrun, L, -, rfl⟩ := hbody
    refine (hS.set hP).trans ((Program.run_readable (hS.readable _ P hP) hrun).trans ?_)
    exact ⟨fun h Q hQ => Option.some.inj (hP.symm.trans hQ) ▸ h, fun h => h P hP⟩
  | submit q now =>
    obtain ⟨rfl, hcommitted⟩ | ⟨event, P, P', L, hcommit, rfl⟩ := submit_ok hbody
    · exact iff_of_true hS fun _ _ => .inl hcommitted
    · refine (hS.set hcommit.program).trans ((Program.commitActions_readable
        (hS.readable _ P hcommit.program) (ProgramBundle.check_kinds hcommit.check)
          hcommit.effects).trans ?_)
      constructor
      · exact fun h Q hQ => .inr (Option.some.inj (hcommit.program.symm.trans hQ) ▸ h)
      · intro h
        refine (h P hcommit.program).resolve_left ?_
        rintro ⟨event', hevent, hcommitted⟩
        rw [hcommit.decision, Ledger.DecisionKey.program.injEq] at hevent
        rw [← hevent, hcommit.fresh] at hcommitted
        cases hcommitted
  | register graph =>
    refine iff_of_true ?_ trivial
    cases body_moves hbody with
    | ledger op L => exact hledger
    | registers g P hregister hfresh =>
      rw [legible_iff] at hS ⊢
      intro other Q hQ
      by_cases hother : other = graph.programId
      · subst hother
        obtain rfl := Option.some.inj ((Table.get?_insert_self hfresh P).symm.trans hQ)
        exact registered_readable hregister
      · exact hS other Q ((Table.get?_insert_ne _ hother P).symm.trans hQ)
  | effect actionId effectId state now =>
    refine iff_of_true ?_ trivial
    cases body_moves hbody with
    | ledger op L => exact hledger
    | effects actionId effectId state now action P P' isNew L haction hP heffect =>
      exact (hS.set hP).2 (Program.recordActionEffect_readable (hS.readable _ P hP) heffect)
  | ledger | event | reconcileStale | claimDecision | decide =>
    cases body_moves hbody with
    | ledger op L => exact iff_of_true hledger trivial

/-- Every status can be read throughout a run exactly when every operation that it commits is
admitted: a recorded candidate is one of a commit node, and a resolution is of a blocker that the
status shows. -/
theorem always_legible_iff (host : Host) (ops : List Op) :
    Machine.Always (next host) Legible {} ops ↔
      Machine.Along (next host) (fun S op => (S.perform host op).isOk → S.Admits op) {} ops := by
  refine Machine.always_iff_along (I := fun _ => True) (fun _ _ _ => trivial)
    (fun S op _ hS => ?_) trivial (legible_iff.2 fun _ _ h => by cases h) ops
  cases h : S.perform host op with
  | error e =>
    have hsame : S.next host op = S := by
      unfold next
      rw [h]
      rfl
    rw [hsame]
    exact iff_of_true hS nofun
  | ok S' =>
    have hnext : S.next host op = S' := by
      unfold next
      rw [h]
      rfl
    rw [hnext, perform_legible hS h]
    exact ⟨fun hadmits _ => hadmits, fun hadmits => hadmits rfl⟩

end System

def mixedRun : List Op :=
  [.register (sampleGraph .noIntegration), .call "run" (.recordCandidate "m1" sampleCandidate) 1]

/-- Its status can never be read again. -/
theorem mixedRun_unreadable :
    ¬∀ (host : Host) (ops : List Op), Machine.Always (System.next host) System.Legible {} ops := by
  intro hall
  have hrun : ((Machine.run (System.next Host.sample) {} mixedRun).programs.get? "run").any
      fun P => !P.nodes.isOk := by decide +kernel
  obtain ⟨P, hP, herror⟩ := (Option.any_eq_true _ _).1 hrun
  obtain ⟨nodes, hnodes⟩ := (hall Host.sample mixedRun mixedRun List.prefix_rfl).readable "run" P hP
  rw [hnodes] at herror
  cases herror

end CodexFlow.Programs
