import CodexFlow.Lib.Reach
import Mathlib

/-!
# Traversals of a graph

`visit` is the depth-first search that marks the nodes on the way to the current one, and refuses a
node that it meets again on its own way. `search` takes nodes from a list until it finds a target.
Both are the loops of a program: their states are the sets that the program changes.
-/

namespace Traversal

open Relation (TransGen)
open Reach (Edge)

variable {α : Type} [DecidableEq α] (next : α → List α)

/-! ### Depth first -/

/-- A search stops at a cycle, or where it is deeper than it may be. -/
inductive Stop where
  | cycle
  | depth
deriving DecidableEq

/-- The nodes on the way to the current one, and the nodes that are done. -/
structure Colours (α : Type) where
  visiting : Finset α := ∅
  visited : Finset α := ∅

def visit : ℕ → α → Colours α → Except Stop (Colours α)
  | 0, _, _ => .error .depth
  | depth + 1, a, c =>
    if a ∈ c.visiting then .error .cycle
    else if a ∈ c.visited then .ok c
    else do
      let c ← (next a).foldlM (fun c b => visit depth b c)
        { c with visiting := insert a c.visiting }
      pure { visiting := c.visiting.erase a, visited := insert a c.visited }

def visitAll (depth : ℕ) (roots : List α) : Except Stop (Colours α) :=
  roots.foldlM (fun c a => visit next depth a c) {}

/-- The nodes that are done lie on no cycle, and lead to nothing else. -/
structure Settled (c : Colours α) : Prop where
  apart : ∀ a ∈ c.visiting, a ∉ c.visited
  closed : ∀ a ∈ c.visited, ∀ b ∈ next a, b ∈ c.visited
  acyclic : ∀ a ∈ c.visited, ¬ TransGen (Edge next) a a

/-- A search through some nodes ends with the nodes done, or it has found a cycle. -/
def Searched (c : Colours α) (nodes : List α) : Except Stop (Colours α) → Prop
  | .ok c' => Settled next c' ∧ c'.visiting = c.visiting ∧ c.visited ⊆ c'.visited ∧
      ∀ a ∈ nodes, a ∈ c'.visited
  | .error .cycle => ∃ a, TransGen (Edge next) a a
  | .error .depth => False

variable {next}

omit [DecidableEq α] in
theorem mem_of_transGen {s : Finset α} (closed : ∀ a ∈ s, ∀ b ∈ next a, b ∈ s) {a b : α}
    (ha : a ∈ s) (h : TransGen (Edge next) a b) : b ∈ s := by
  induction h with
  | single hb => exact closed a ha _ hb
  | tail _ hb ih => exact closed _ ih _ hb

omit [DecidableEq α] in
theorem Searched.error {c c' : Colours α} {nodes nodes' : List α} {stop : Stop}
    (h : Searched next c nodes (.error stop)) : Searched next c' nodes' (.error stop) := by
  cases stop with
  | cycle => exact h
  | depth => exact h

omit [DecidableEq α] in
theorem searched_foldlM {f : Colours α → α → Except Stop (Colours α)} {visiting : Finset α}
    {nodes : List α} (h : ∀ a ∈ nodes, ∀ c, Settled next c → c.visiting = visiting →
      Searched next c [a] (f c a)) :
    ∀ {c : Colours α}, Settled next c → c.visiting = visiting →
      Searched next c nodes (nodes.foldlM f c) := by
  induction nodes with
  | nil =>
    intro c hc _
    exact ⟨hc, rfl, subset_rfl, fun _ ha => absurd ha List.not_mem_nil⟩
  | cons a nodes ih =>
    intro c hc hvisiting
    have hfirst := h a List.mem_cons_self c hc hvisiting
    rw [List.foldlM_cons]
    cases hstep : f c a with
    | error stop =>
      rw [hstep] at hfirst
      exact hfirst.error
    | ok c' =>
      rw [hstep] at hfirst
      obtain ⟨hc', hsame, hmore, ha⟩ := hfirst
      have hrest := ih (fun b hb => h b (List.mem_cons_of_mem a hb)) hc' (hsame.trans hvisiting)
      show Searched next c (a :: nodes) (nodes.foldlM f c')
      cases hloop : nodes.foldlM f c' with
      | error stop =>
        rw [hloop] at hrest
        exact hrest.error
      | ok c'' =>
        rw [hloop] at hrest
        obtain ⟨hc'', hsame', hmore', hnodes⟩ := hrest
        refine ⟨hc'', hsame'.trans hsame, hmore.trans hmore', ?_⟩
        exact List.forall_mem_cons.2 ⟨hmore' (ha a (List.mem_singleton_self a)), hnodes⟩

theorem Settled.finish {c : Colours α} {visiting : Finset α} {a : α} (hc : Settled next c)
    (hvisiting : c.visiting = insert a visiting) (hnew : a ∉ visiting)
    (hnext : ∀ b ∈ next a, b ∈ c.visited) :
    Settled next { visiting := c.visiting.erase a, visited := insert a c.visited } where
  apart := by
    intro b hb hmem
    obtain ⟨hne, hb⟩ := Finset.mem_erase.1 hb
    exact hc.apart b hb ((Finset.mem_insert.1 hmem).resolve_left hne)
  closed := by
    intro b hb d hd
    refine Finset.mem_insert_of_mem ?_
    rcases Finset.mem_insert.1 hb with rfl | hb
    · exact hnext d hd
    · exact hc.closed b hb d hd
  acyclic := by
    intro b hb hcycle
    rcases Finset.mem_insert.1 hb with rfl | hb
    · -- the first edge of the cycle leads to a node that is done, and so does the last one
      have hback : b ∈ c.visited := by
        rcases TransGen.head'_iff.1 hcycle with ⟨d, hd, hpath⟩
        rcases Relation.reflTransGen_iff_eq_or_transGen.1 hpath with rfl | hpath
        · exact hnext _ hd
        · exact mem_of_transGen hc.closed (hnext d hd) hpath
      exact hc.apart b (hvisiting ▸ Finset.mem_insert_self b visiting) hback
    · exact hc.acyclic b hb hcycle

variable {nodes : Finset α}

/-- The search from a node, reached from every node on the way to it. -/
theorem visit_searched (declared : ∀ a ∈ nodes, ∀ b ∈ next a, b ∈ nodes) :
    ∀ {depth : ℕ} {a : α} {c : Colours α}, a ∈ nodes → c.visiting ⊆ nodes →
      nodes.card < depth + c.visiting.card → Settled next c →
      (∀ v ∈ c.visiting, TransGen (Edge next) v a) →
      Searched next c [a] (visit next depth a c) := by
  intro depth
  induction depth with
  | zero =>
    intro a c _ hsub hdepth _ _
    have := Finset.card_le_card hsub
    omega
  | succ depth ih =>
    intro a c ha hsub hdepth hc hway
    rw [visit]
    by_cases hvisiting : a ∈ c.visiting
    · rw [if_pos hvisiting]
      exact ⟨a, hway a hvisiting⟩
    rw [if_neg hvisiting]
    by_cases hvisited : a ∈ c.visited
    · rw [if_pos hvisited]
      exact ⟨hc, rfl, subset_rfl, fun b hb => List.mem_singleton.1 hb ▸ hvisited⟩
    rw [if_neg hvisited]
    have hopen : Settled next { c with visiting := insert a c.visiting } := by
      refine ⟨fun b hb => ?_, hc.closed, hc.acyclic⟩
      rcases Finset.mem_insert.1 hb with rfl | hb
      · exact hvisited
      · exact hc.apart b hb
    have hloop : Searched next { c with visiting := insert a c.visiting } (next a)
        ((next a).foldlM (fun c b => visit next depth b c)
          { c with visiting := insert a c.visiting }) := by
      refine searched_foldlM ?_ hopen rfl
      intro b hb c' hc' hsame
      refine ih (declared a ha b hb) ?_ ?_ hc' ?_
      · rw [hsame]
        exact Finset.insert_subset ha hsub
      · rw [hsame, Finset.card_insert_of_notMem hvisiting]
        omega
      · intro v hv
        rw [hsame] at hv
        rcases Finset.mem_insert.1 hv with rfl | hv
        · exact .single hb
        · exact .tail (hway v hv) hb
    cases hresult : (next a).foldlM (fun c b => visit next depth b c)
        { c with visiting := insert a c.visiting } with
    | error stop =>
      rw [hresult] at hloop
      exact hloop.error
    | ok c' =>
      rw [hresult] at hloop
      obtain ⟨hc', hsame, hmore, hnext⟩ := hloop
      refine ⟨hc'.finish hsame hvisiting hnext, ?_, hmore.trans (Finset.subset_insert a _), ?_⟩
      · show c'.visiting.erase a = c.visiting
        rw [hsame, Finset.erase_insert hvisiting]
      · intro b hb
        obtain rfl := List.mem_singleton.1 hb
        exact Finset.mem_insert_self b _

/-- As deep as there are nodes, the search from all of them finds out whether there is a cycle. -/
theorem visitAll_searched (declared : ∀ a ∈ nodes, ∀ b ∈ next a, b ∈ nodes) {depth : ℕ}
    (hdepth : nodes.card < depth) {roots : List α} (hroots : ∀ a ∈ roots, a ∈ nodes) :
    Searched next {} roots (visitAll next depth roots) := by
  have hstart : Settled next {} :=
    ⟨fun _ h => absurd h (Finset.notMem_empty _), fun _ h => absurd h (Finset.notMem_empty _),
      fun _ h => absurd h (Finset.notMem_empty _)⟩
  refine searched_foldlM ?_ hstart rfl
  intro a ha c hc hsame
  refine visit_searched declared (hroots a ha) ?_ ?_ hc ?_
  · rw [hsame]
    exact Finset.empty_subset nodes
  · rw [hsame]
    exact hdepth
  · rw [hsame]
    exact fun v hv => absurd hv (Finset.notMem_empty v)

/-! ### By a list -/

variable (next) (target : α)

/-- The search takes the last node that is pending, as often as the fuel allows. -/
def search : ℕ → List α → Finset α → Option Bool
  | 0, _, _ => none
  | fuel + 1, pending, seen =>
    match pending.getLast? with
    | none => some false
    | some current =>
      if current = target then some true
      else if current ∈ seen then search fuel pending.dropLast seen
      else search fuel (pending.dropLast ++ next current) (insert current seen)

variable {next target}

/-- What the search has seen has no successor that it has forgotten. -/
structure Frontier (next : α → List α) (target start : α) (pending : List α)
    (seen : Finset α) : Prop where
  reached : ∀ b ∈ pending, TransGen (Edge next) start b
  first : ∀ b ∈ next start, b ∈ seen ∨ b ∈ pending
  covered : ∀ a ∈ seen, ∀ b ∈ next a, b ∈ seen ∨ b ∈ pending
  missed : target ∉ seen

variable {start : α} {pending : List α} {seen : Finset α}

omit [DecidableEq α] in
theorem Frontier.empty (h : Frontier next target start [] seen) :
    ¬ TransGen (Edge next) start target := fun hpath => by
  have hseen : ∀ {b : α}, b ∈ seen ∨ b ∈ ([] : List α) → b ∈ seen := fun hb =>
    hb.resolve_right List.not_mem_nil
  have hmem : ∀ {b : α}, TransGen (Edge next) start b → b ∈ seen := fun hb => by
    induction hb with
    | single hb => exact hseen (h.first _ hb)
    | tail _ hb ih => exact hseen (h.covered _ ih _ hb)
  exact h.missed (hmem hpath)

omit [DecidableEq α] in
theorem Frontier.skip {current : α} (h : Frontier next target start (pending ++ [current]) seen)
    (hseen : current ∈ seen) : Frontier next target start pending seen := by
  have hkeep : ∀ {b : α}, b ∈ seen ∨ b ∈ pending ++ [current] → b ∈ seen ∨ b ∈ pending := by
    rintro b (hb | hb)
    · exact .inl hb
    · rcases List.mem_append.1 hb with hb | hb
      · exact .inr hb
      · exact .inl (List.mem_singleton.1 hb ▸ hseen)
  exact ⟨fun b hb => h.reached b (List.mem_append_left _ hb), fun b hb => hkeep (h.first b hb),
    fun a ha b hb => hkeep (h.covered a ha b hb), h.missed⟩

theorem Frontier.expand {current : α} (h : Frontier next target start (pending ++ [current]) seen)
    (hne : current ≠ target) :
    Frontier next target start (pending ++ next current) (insert current seen) := by
  have hkeep : ∀ {b : α}, b ∈ seen ∨ b ∈ pending ++ [current] →
      b ∈ insert current seen ∨ b ∈ pending ++ next current := by
    rintro b (hb | hb)
    · exact .inl (Finset.mem_insert_of_mem hb)
    · rcases List.mem_append.1 hb with hb | hb
      · exact .inr (List.mem_append_left _ hb)
      · exact .inl (List.mem_singleton.1 hb ▸ Finset.mem_insert_self current seen)
  refine ⟨fun b hb => ?_, fun b hb => hkeep (h.first b hb), fun a ha b hb => ?_, fun hmem => ?_⟩
  · rcases List.mem_append.1 hb with hb | hb
    · exact h.reached b (List.mem_append_left _ hb)
    · exact .tail (h.reached current (List.mem_append_right _ (List.mem_singleton_self _))) hb
  · rcases Finset.mem_insert.1 ha with rfl | ha
    · exact .inr (List.mem_append_right _ hb)
    · exact hkeep (h.covered a ha b hb)
  · exact (Finset.mem_insert.1 hmem).elim (fun same => hne same.symm) h.missed

/-- The steps that are left: a node is taken once for each edge to it. -/
def stepsLeft (next : α → List α) (nodes : Finset α) (pending : List α) (seen : Finset α) : ℕ :=
  pending.length + ∑ a ∈ nodes \ seen, (next a).length

theorem stepsLeft_expand {current : α} (hnode : current ∈ nodes) (hnew : current ∉ seen) :
    stepsLeft next nodes (pending ++ next current) (insert current seen) + 1 =
      stepsLeft next nodes (pending ++ [current]) seen := by
  have hmem : current ∈ nodes \ seen := Finset.mem_sdiff.2 ⟨hnode, hnew⟩
  have hsplit := Finset.add_sum_erase (nodes \ seen) (fun a => (next a).length) hmem
  have hset : nodes \ insert current seen = (nodes \ seen).erase current := by
    ext a
    simp only [Finset.mem_sdiff, Finset.mem_insert, Finset.mem_erase, not_or]
    tauto
  unfold stepsLeft
  rw [hset, List.length_append, List.length_append, List.length_singleton]
  omega

theorem search_spec (declared : ∀ a ∈ nodes, ∀ b ∈ next a, b ∈ nodes) :
    ∀ {fuel : ℕ} {pending : List α} {seen : Finset α}, (∀ a ∈ pending, a ∈ nodes) →
      stepsLeft next nodes pending seen < fuel → Frontier next target start pending seen →
      ∃ answer, search next target fuel pending seen = some answer ∧
        (answer = true ↔ TransGen (Edge next) start target) := by
  intro fuel
  induction fuel with
  | zero => exact fun _ h => absurd h (Nat.not_lt_zero _)
  | succ fuel ih =>
    intro pending seen hpending hsteps h
    rw [search]
    rcases List.eq_nil_or_concat' pending with rfl | ⟨rest, current, rfl⟩
    · exact ⟨false, rfl, fun hfalse => (Bool.false_ne_true hfalse).elim,
        fun hpath => absurd hpath h.empty⟩
    rw [List.getLast?_concat, List.dropLast_concat]
    have hrest : ∀ a ∈ rest, a ∈ nodes := fun a ha => hpending a (List.mem_append_left _ ha)
    have hcurrent : current ∈ rest ++ [current] :=
      List.mem_append_right _ (List.mem_singleton_self _)
    show ∃ answer, (if current = target then some true
      else if current ∈ seen then search next target fuel rest seen
      else search next target fuel (rest ++ next current) (insert current seen)) = some answer ∧ _
    by_cases htarget : current = target
    · rw [if_pos htarget]
      exact ⟨true, rfl, fun _ => htarget ▸ h.reached current hcurrent, fun _ => rfl⟩
    rw [if_neg htarget]
    by_cases hseen : current ∈ seen
    · rw [if_pos hseen]
      refine ih hrest ?_ (h.skip hseen)
      unfold stepsLeft at hsteps ⊢
      rw [List.length_append, List.length_singleton] at hsteps
      omega
    · rw [if_neg hseen]
      have hnode := hpending current hcurrent
      have hleft : stepsLeft next nodes (rest ++ next current) (insert current seen) + 1 =
          stepsLeft next nodes (rest ++ [current]) seen := stepsLeft_expand hnode hseen
      refine ih (fun a ha => ?_) (by omega) (h.expand htarget)
      exact (List.mem_append.1 ha).elim (hrest a) (declared current hnode a)

end Traversal
