import Hostility.Proofs.Standings

/-!
Whoever is picked was a candidate. The draw by distance, the lottery, every tactic and the
preference for a wanted entity pick among the candidates that they are given and nobody else.
-/
namespace Hostility

/-- A choice of nobody, or of one of the candidates. -/
def Choice.IsAmong (candidates : List Candidate) (choice : Choice) : Prop :=
  ∀ e, choice.target? = some e → ∃ k ∈ candidates, k.entity = e

namespace Choice.IsAmong

variable {candidates : List Candidate}

theorem empty (candidates : List Candidate) : Choice.empty.IsAmong candidates := by
  intro e he
  cases he

theorem rejected (bits : UInt16) : (Choice.rejected bits).IsAmong candidates := by
  intro e he
  cases he

theorem ofOption {picked : Option Entity}
    (h : ∀ e, picked = some e → ∃ k ∈ candidates, k.entity = e) :
    (Choice.ofOption picked).IsAmong candidates := by
  cases picked with
  | none => exact empty candidates
  | some e => exact h

theorem mono {fewer : List Candidate} {choice : Choice} (h : choice.IsAmong fewer)
    (hsubset : fewer ⊆ candidates) : choice.IsAmong candidates := by
  intro e he
  obtain ⟨k, hk, hentity⟩ := h e he
  exact ⟨k, hsubset hk, hentity⟩

end Choice.IsAmong

namespace Distance

theorem mem_of_firstAbove {total roll running : Float} {candidates : List (Entity × Float)}
    {e : Entity} (h : firstAbove total roll running candidates = some e) :
    e ∈ candidates.map (·.1) := by
  induction candidates generalizing running with
  | nil => cases h
  | cons a rest ih =>
    rw [firstAbove] at h
    split at h
    · obtain rfl := Option.some.inj h
      simp
    · exact List.mem_cons_of_mem _ (ih h)

theorem mem_of_draw {candidates : List (Entity × Float)} {r : RandomSource} {e : Entity}
    (h : (draw candidates r).1 = some e) : e ∈ candidates.map (·.1) := by
  unfold draw at h
  split at h
  · cases h
  · obtain rfl := Option.some.inj h
    simp
  · next first d rest _ =>
    obtain rfl := Option.some.inj h
    cases hpicked : firstAbove (sum ((first, d) :: rest)) _ 0.0 ((first, d) :: rest) with
    | none => simp
    | some e => exact mem_of_firstAbove hpicked

end Distance

namespace Lottery

theorem mem_of_winner {l : Lottery} {roll : Int64} {e : Entity} (h : l.winner roll = some e) :
    ∃ rung ∈ l.rungs, rung.entity = e := by
  unfold winner at h
  obtain ⟨rung, hrung, rfl⟩ := Option.map_eq_some_iff.mp h
  refine ⟨rung, ?_, rfl⟩
  rcases Option.or_eq_some_iff.mp hrung with hfound | ⟨-, hlast⟩
  · exact List.mem_of_find?_eq_some hfound
  · exact List.mem_of_getLast? hlast

/-- Whoever is drawn has an entry at or above the cut. -/
theorem cut_le_of_draw {t : Tuning} {entries : List (Entity × Int64)} {l : Lottery}
    (hbuilt : build t entries = some l) {r : RandomSource} {e : Entity}
    (h : (l.draw r).1 = some e) : ∃ v, (e, v) ∈ entries ∧ l.cut ≤ v := by
  obtain ⟨rung, hrung, rfl⟩ := mem_of_winner h
  obtain ⟨v, hentry, hle, -⟩ := exists_entry hbuilt hrung
  exact ⟨v, hentry, hle⟩

end Lottery

namespace Selection

variable {candidates : List Candidate} {r : RandomSource}

theorem byDistance_isAmong (candidates : List Candidate) (r : RandomSource) :
    (byDistance candidates r).1.IsAmong candidates := by
  refine .ofOption fun e he => ?_
  have hmem := Distance.mem_of_draw he
  rw [List.map_map] at hmem
  exact List.mem_map.mp hmem

/-- A fold that holds what it held or takes the next one ends with one of the list. -/
theorem mem_of_foldl {pick : Option Candidate → Candidate → Option Candidate}
    (hpick : ∀ held next, pick held next = some next ∨ pick held next = held)
    {held : Option Candidate} {k : Candidate} (h : candidates.foldl pick held = some k) :
    held = some k ∨ k ∈ candidates := by
  induction candidates generalizing held with
  | nil => exact .inl h
  | cons next rest ih =>
    rcases ih h with hheld | hrest
    · rcases hpick held next with hnext | hkept
      · obtain rfl := Option.some.inj (hnext.symm.trans hheld)
        exact .inr (by simp)
      · exact .inl (hkept.symm.trans hheld)
    · exact .inr (List.mem_cons_of_mem next hrest)

theorem mem_of_best {beats : Candidate → Candidate → Bool} {k : Candidate}
    (h : best beats candidates = some k) : k ∈ candidates := by
  refine (mem_of_foldl (fun held next => ?_) h).resolve_left (by simp)
  cases held with
  | none => exact .inl rfl
  | some c =>
    dsimp only
    split
    · exact .inl rfl
    · exact .inr rfl

theorem best_isAmong (beats : Candidate → Candidate → Bool) (candidates : List Candidate) :
    (Choice.ofOption ((best beats candidates).map (·.entity))).IsAmong candidates := by
  refine .ofOption fun e he => ?_
  obtain ⟨k, hk, rfl⟩ := Option.map_eq_some_iff.mp he
  exact ⟨k, mem_of_best hk, rfl⟩

theorem prefer_isAmong (wanted : Option Entity) {pick : Entity → Choice}
    (hpick : ∀ e, (pick e).target? = some e) (candidates : List Candidate) (r : RandomSource) :
    (prefer wanted pick candidates r).1.IsAmong candidates := by
  unfold prefer
  split
  · next e he =>
    have hmem := (Option.filter_eq_some_iff.mp he).2
    intro e' he'
    rw [hpick] at he'
    obtain rfl := Option.some.inj he'
    obtain ⟨k, hk, hentity⟩ := List.any_eq_true.mp hmem
    exact ⟨k, hk, by simpa using hentity⟩
  · exact byDistance_isAmong candidates r

theorem follow_isAmong (history : DamageHistory) (w : World) (actor : Entity) (tactic : Tactic)
    (current : Option Entity) (candidates : List Candidate) (r : RandomSource) :
    (follow history w actor tactic current candidates r).1.IsAmong candidates := by
  cases tactic with
  | hold => exact prefer_isAmong _ (fun _ => rfl) candidates r
  | focused => exact prefer_isAmong _ (fun _ => rfl) candidates r
  | random => exact byDistance_isAmong candidates r
  | lastDamager => exact prefer_isAmong _ (fun _ => rfl) candidates r
  | topDamager => exact prefer_isAmong _ (fun _ => rfl) candidates r
  | weakest => exact best_isAmong _ candidates
  | strongest => exact best_isAmong _ candidates
  | nearest => exact best_isAmong _ candidates

/-- A pass of tactics finds no candidates, draws a bit that names no tactic, or follows a tactic. -/
theorem byTactic_cases (history : DamageHistory) (w : World) (actor : Entity)
    (tactics : TacticSet) (current : Option Entity) (candidates : List Candidate)
    (r : RandomSource) :
    candidates = [] ∧ (byTactic history w actor tactics current candidates r).1 = .empty ∨
      (∃ bit, (tactics.draw r).1 = some (.unknown bit) ∧
        (byTactic history w actor tactics current candidates r).1 = .rejected bit) ∨
      ∃ tactic r', (byTactic history w actor tactics current candidates r).1 =
        (follow history w actor tactic current candidates r').1 := by
  unfold byTactic
  split
  · next hempty => exact .inl ⟨List.isEmpty_iff.mp hempty, rfl⟩
  · split
    · next bit _ hdraw => exact .inr (.inl ⟨bit, congrArg Prod.fst hdraw, rfl⟩)
    · exact .inr (.inr ⟨_, _, rfl⟩)
    · exact .inr (.inr ⟨.hold, _, rfl⟩)

theorem byTactic_isAmong (history : DamageHistory) (w : World) (actor : Entity)
    (tactics : TacticSet) (current : Option Entity) (candidates : List Candidate)
    (r : RandomSource) :
    (byTactic history w actor tactics current candidates r).1.IsAmong candidates := by
  rcases byTactic_cases history w actor tactics current candidates r with
    ⟨-, hempty⟩ | ⟨bit, -, hrejected⟩ | ⟨tactic, r', hfollowed⟩
  · rw [hempty]
    exact .empty candidates
  · rw [hrejected]
    exact .rejected bit
  · rw [hfollowed]
    exact follow_isAmong history w actor tactic current candidates r'

theorem byThreat_isAmong (t : Tuning) (l : Ledger) (candidates : List Candidate)
    (r : RandomSource) : (byThreat t l candidates r).1.IsAmong candidates := by
  rw [byThreat_eq]
  split
  · next lottery hbuilt =>
    refine .ofOption fun e he => ?_
    obtain ⟨v, hentry, -⟩ := Lottery.cut_le_of_draw hbuilt he
    exact (mem_standings.mp hentry).2
  · exact (byDistance_isAmong _ r).mono fun _ hk => (List.mem_filter.mp hk).1

end Selection

end Hostility
