import Hostility.Proofs.Picks

/-!
A selection decides whenever it can. The lottery finds a winner at or above its cut unless the cut
lies above everybody, the draw by distance finds somebody among any candidates at all, and every
tactic falls back on that draw. Only a drawn bit that names no tactic leaves candidates unchosen.
-/
namespace Hostility

namespace Lottery

variable {t : Tuning} {entries : List (Entity × Int64)} {l : Lottery} {e : Entity} {v : Int64}

theorem le_maxThreat (h : IsOf t entries l) (hentry : (e, v) ∈ entries) : v ≤ l.maxThreat :=
  (List.max?_eq_some_iff.mp h.max).2 v (List.mem_map_of_mem (f := (·.2)) hentry)

theorem exists_maxThreat (h : IsOf t entries l) : ∃ e, (e, l.maxThreat) ∈ entries := by
  obtain ⟨a, ha, hthreat⟩ := List.mem_map.mp (List.max?_mem h.max)
  exact ⟨a.1, hthreat ▸ ha⟩

/-- The ladder is empty only if the cut lies above the highest threat. -/
theorem rungs_eq_nil_iff (hbuilt : build t entries = some l) :
    l.rungs = [] ↔ l.maxThreat < l.cut := by
  have h := isOf_of_build hbuilt
  constructor
  · intro hnil
    obtain ⟨e, hentry⟩ := exists_maxThreat h
    apply Int64.not_le.mp
    intro hle
    obtain ⟨rung, hrung, -⟩ := exists_rung hbuilt hentry hle
    rw [hnil] at hrung
    cases hrung
  · intro hlt
    rw [List.eq_nil_iff_forall_not_mem]
    intro rung hrung
    obtain ⟨v, hentry, hle, -⟩ := exists_entry hbuilt hrung
    exact Int64.not_le.mpr hlt (Int64.le_trans hle (le_maxThreat h hentry))

/-- Whoever a roll misses, the last rung takes. -/
theorem winner_eq_none_iff {roll : Int64} : l.winner roll = none ↔ l.rungs = [] := by
  unfold winner
  simp only [Option.map_eq_none_iff, Option.or_eq_none_iff, List.getLast?_eq_none_iff]
  constructor
  · exact And.right
  · intro hnil
    exact ⟨by rw [hnil, List.find?_nil], hnil⟩

theorem draw_eq_none_iff (hbuilt : build t entries = some l) {r : RandomSource} :
    (l.draw r).1 = none ↔ l.maxThreat < l.cut :=
  winner_eq_none_iff.trans (rungs_eq_nil_iff hbuilt)

end Lottery

namespace Choice

variable {choice : Choice} {picked : Option Entity}

/-- A choice of somebody. -/
def IsPick (choice : Choice) : Prop := ∃ e, choice = .chosen e ∨ choice = .kept e

theorem ofOption_eq_empty_iff : ofOption picked = .empty ↔ picked = none := by
  cases picked <;> simp [ofOption]

theorem ofOption_eq_chosen_iff {e : Entity} : ofOption picked = .chosen e ↔ picked = some e := by
  cases picked <;> simp [ofOption]

theorem ofOption_eq_empty_or_chosen (picked : Option Entity) :
    ofOption picked = .empty ∨ ∃ e, ofOption picked = .chosen e := by
  cases picked <;> simp [ofOption]

/-- A choice as a tactic makes it: it keeps nobody but the current target and rejects nothing. -/
structure IsTactical (current : Option Entity) (choice : Choice) : Prop where
  kept : ∀ e, choice = .kept e → current = some e
  known : ∀ bit, choice ≠ .rejected bit

theorem isTactical_ofOption (current picked : Option Entity) :
    (ofOption picked).IsTactical current := by
  cases picked <;> constructor <;> simp [ofOption]

theorem isPick_ofOption (h : picked ≠ none) : (ofOption picked).IsPick := by
  obtain ⟨e, rfl⟩ := Option.ne_none_iff_exists'.mp h
  exact ⟨e, .inl rfl⟩

end Choice

namespace Distance

theorem draw_eq_none_iff {candidates : List (Entity × Float)} {r : RandomSource} :
    (draw candidates r).1 = none ↔ candidates = [] := by
  unfold draw
  split <;> simp

end Distance

namespace Selection

open Choice (IsPick)

variable {t : Tuning} {l : Ledger} {history : DamageHistory} {w : World} {actor e : Entity}
  {tactics : TacticSet} {tactic : Tactic} {current : Option Entity} {candidates : List Candidate}
  {r : RandomSource}

theorem byDistance_eq_empty_iff : (byDistance candidates r).1 = .empty ↔ candidates = [] := by
  refine Choice.ofOption_eq_empty_iff.trans (Distance.draw_eq_none_iff.trans ?_)
  exact List.map_eq_nil_iff

theorem byDistance_isPick (h : candidates ≠ []) : (byDistance candidates r).1.IsPick := by
  apply Choice.isPick_ofOption
  intro hnone
  exact h (List.map_eq_nil_iff.mp (Distance.draw_eq_none_iff.mp hnone))

/-- Once somebody is held, somebody stays held. -/
theorem foldl_ne_none {pick : Option Candidate → Candidate → Option Candidate}
    (hpick : ∀ held next, pick held next ≠ none) {held : Option Candidate} (h : held ≠ none)
    (candidates : List Candidate) : candidates.foldl pick held ≠ none := by
  induction candidates generalizing held with
  | nil => exact h
  | cons next rest ih => exact ih (hpick held next)

theorem best_ne_none (beats : Candidate → Candidate → Bool) (h : candidates ≠ []) :
    best beats candidates ≠ none := by
  cases candidates with
  | nil => exact absurd rfl h
  | cons first rest =>
    refine foldl_ne_none (fun held next => ?_) (Option.some_ne_none first) rest
    cases held with
    | none => simp
    | some c =>
      dsimp only
      split <;> simp

theorem best_isPick (beats : Candidate → Candidate → Bool) (h : candidates ≠ []) :
    (Choice.ofOption ((best beats candidates).map (·.entity))).IsPick := by
  apply Choice.isPick_ofOption
  rw [Ne, Option.map_eq_none_iff]
  exact best_ne_none beats h

theorem prefer_isPick {wanted : Option Entity} {pick : Entity → Choice}
    (hpick : ∀ e, (pick e).IsPick) (h : candidates ≠ []) :
    (prefer wanted pick candidates r).1.IsPick := by
  unfold prefer
  split
  · exact hpick _
  · exact byDistance_isPick h

/-- Every tactic picks somebody among any candidates. -/
theorem follow_isPick (h : candidates ≠ []) :
    (follow history w actor tactic current candidates r).1.IsPick := by
  cases tactic with
  | hold => exact prefer_isPick (fun e => ⟨e, .inr rfl⟩) h
  | focused => exact prefer_isPick (fun e => ⟨e, .inr rfl⟩) h
  | random => exact byDistance_isPick h
  | lastDamager => exact prefer_isPick (fun e => ⟨e, .inl rfl⟩) h
  | topDamager => exact prefer_isPick (fun e => ⟨e, .inl rfl⟩) h
  | weakest => exact best_isPick _ h
  | strongest => exact best_isPick _ h
  | nearest => exact best_isPick _ h

theorem prefer_isTactical {wanted : Option Entity} {pick : Entity → Choice}
    (hpick : ∀ e, wanted = some e → (pick e).IsTactical current) (candidates : List Candidate)
    (r : RandomSource) : (prefer wanted pick candidates r).1.IsTactical current := by
  unfold prefer
  split
  · next e he => exact hpick e (Option.filter_eq_some_iff.mp he).1
  · exact Choice.isTactical_ofOption ..

theorem follow_isTactical (history : DamageHistory) (w : World) (actor : Entity) (tactic : Tactic)
    (current : Option Entity) (candidates : List Candidate) (r : RandomSource) :
    (follow history w actor tactic current candidates r).1.IsTactical current := by
  have hkept (e : Entity) (he : current = some e) : (Choice.kept e).IsTactical current :=
    ⟨fun _ h => Choice.kept.inj h ▸ he, by simp⟩
  have hchosen (e : Entity) : (Choice.chosen e).IsTactical current := by
    constructor <;> simp
  cases tactic with
  | hold => exact prefer_isTactical hkept candidates r
  | focused => exact prefer_isTactical hkept candidates r
  | random => exact Choice.isTactical_ofOption ..
  | lastDamager => exact prefer_isTactical (fun e _ => hchosen e) candidates r
  | topDamager => exact prefer_isTactical (fun e _ => hchosen e) candidates r
  | weakest => exact Choice.isTactical_ofOption ..
  | strongest => exact Choice.isTactical_ofOption ..
  | nearest => exact Choice.isTactical_ofOption ..

theorem current_of_kept
    (h : (byTactic history w actor tactics current candidates r).1 = .kept e) :
    current = some e := by
  rcases byTactic_cases history w actor tactics current candidates r with
    ⟨-, hempty⟩ | ⟨bit, -, hrejected⟩ | ⟨tactic, r', hfollowed⟩
  · cases hempty.symm.trans h
  · cases hrejected.symm.trans h
  · exact (follow_isTactical ..).kept e (hfollowed.symm.trans h)

/-- Only a drawn bit without a meaning is rejected: a single bit of the set that names no
tactic. -/
theorem unknown_of_rejected {bit : UInt16}
    (h : (byTactic history w actor tactics current candidates r).1 = .rejected bit) :
    bit ∈ tactics.setBits ∧ Tactic.ofBit? bit = none := by
  rcases byTactic_cases history w actor tactics current candidates r with
    ⟨-, hempty⟩ | ⟨drawn, hdraw, hrejected⟩ | ⟨tactic, r', hfollowed⟩
  · cases hempty.symm.trans h
  · obtain rfl := Choice.rejected.inj (hrejected.symm.trans h)
    exact TacticSet.of_draw_unknown hdraw
  · exact absurd (hfollowed.symm.trans h) ((follow_isTactical ..).known bit)

/-- Where every bit names a tactic, a tactic or the fallback for none picks somebody. -/
theorem byTactic_isPick (h : candidates ≠ []) (hknown : tactics.hasUnknownBits = false) :
    (byTactic history w actor tactics current candidates r).1.IsPick := by
  rcases byTactic_cases history w actor tactics current candidates r with
    ⟨hnobody, -⟩ | ⟨bit, hdraw, -⟩ | ⟨tactic, r', hfollowed⟩
  · exact absurd hnobody h
  · obtain ⟨hset, hnameless⟩ := TacticSet.of_draw_unknown hdraw
    obtain ⟨tactic, hnamed⟩ := TacticSet.exists_tactic_of_mem_setBits hknown hset
    rw [hnameless] at hnamed
    cases hnamed
  · rw [hfollowed]
    exact follow_isPick h

theorem byThreat_eq_empty_or_chosen (t : Tuning) (l : Ledger) (candidates : List Candidate)
    (r : RandomSource) :
    (byThreat t l candidates r).1 = .empty ∨ ∃ e, (byThreat t l candidates r).1 = .chosen e := by
  rw [byThreat_eq]
  split
  · exact Choice.ofOption_eq_empty_or_chosen _
  · exact Choice.ofOption_eq_empty_or_chosen _

/-- Without a lottery the draw is among the tracked candidates too. -/
theorem contains_of_chosen (h : (byThreat t l candidates r).1 = .chosen e) :
    l.contains e = true := by
  rw [byThreat_eq] at h
  split at h
  · next lottery hbuilt =>
    obtain ⟨v, hentry, -⟩ := Lottery.cut_le_of_draw hbuilt (Choice.ofOption_eq_chosen_iff.mp h)
    rw [Ledger.contains_eq, (mem_standings.mp hentry).1, Option.isSome_some]
  · obtain ⟨c, hc, rfl⟩ := byDistance_isAmong (trackedAmong l candidates) r e (by rw [h]; rfl)
    exact (List.mem_filter.mp hc).2

/-- Nobody is picked if nobody is tracked, or if the cut of the lottery lies above everybody. -/
theorem byThreat_eq_empty_iff :
    (byThreat t l candidates r).1 = .empty ↔
      (∀ c ∈ candidates, l.contains c.entity = false) ∨
      ∃ lottery, Lottery.build t (standings l candidates) = some lottery ∧
        lottery.maxThreat < lottery.cut := by
  rw [byThreat_eq]
  split
  · next lottery hbuilt =>
    obtain ⟨e, hentry⟩ := Lottery.exists_maxThreat (Lottery.isOf_of_build hbuilt)
    obtain ⟨hvalue, c, hc, hentity⟩ := mem_standings.mp hentry
    have htracked : ¬ ∀ c ∈ candidates, l.contains c.entity = false := by
      intro hnobody
      have hmissing := hnobody c hc
      rw [hentity, Ledger.contains_eq, hvalue] at hmissing
      cases hmissing
    rw [Choice.ofOption_eq_empty_iff, Lottery.draw_eq_none_iff hbuilt]
    simp [htracked, hbuilt]
  · next hbuilt =>
    rw [byDistance_eq_empty_iff, trackedAmong_eq_nil_iff]
    simp [hbuilt]

theorem cut_le_of_chosen {lottery : Lottery}
    (hbuilt : Lottery.build t (standings l candidates) = some lottery)
    (h : (byThreat t l candidates r).1 = .chosen e) :
    ∃ v, l.value? e = some v ∧ lottery.cut ≤ v := by
  rw [byThreat_eq, hbuilt] at h
  obtain ⟨v, hentry, hle⟩ := Lottery.cut_le_of_draw hbuilt (Choice.ofOption_eq_chosen_iff.mp h)
  exact ⟨v, (mem_standings.mp hentry).1, hle⟩

/-- Both passes pick among the candidates. The threat table picks somebody tracked, at the cut or
above, whenever somebody is tracked and the cut lies within reach. A pass of tactics keeps nobody
but the current target, rejects nothing but a single set bit that names no tactic, and picks
somebody whenever there are candidates and every bit names a tactic. -/
theorem passes_decide (t : Tuning) (l : Ledger) (history : DamageHistory) (w : World)
    (actor : Entity) (tactics : TacticSet) (current : Option Entity) (candidates : List Candidate)
    (r : RandomSource) :
    let threat := (byThreat t l candidates r).1
    let tactic := (byTactic history w actor tactics current candidates r).1
    threat.IsAmong candidates ∧ tactic.IsAmong candidates ∧
    (threat = .empty ∨ ∃ e, threat = .chosen e ∧ l.contains e = true) ∧
    ((∀ lottery, Lottery.build t (standings l candidates) = some lottery →
      lottery.cut ≤ lottery.maxThreat) →
        (threat = .empty ↔ ∀ c ∈ candidates, l.contains c.entity = false)) ∧
    (∀ lottery e, Lottery.build t (standings l candidates) = some lottery → threat = .chosen e →
      ∃ v, l.value? e = some v ∧ lottery.cut ≤ v) ∧
    (∀ e, tactic = .kept e → current = some e) ∧
    (∀ bit, tactic = .rejected bit → (∃ i < 16, bit = 1 <<< UInt16.ofNat i) ∧
      tactics.bits &&& bit ≠ 0 ∧ Tactic.ofBit? bit = none) ∧
    (candidates ≠ [] → tactics.hasUnknownBits = false →
      ∃ e, tactic = .chosen e ∨ tactic = .kept e) := by
  intro threat tactic
  constructor
  · exact byThreat_isAmong t l candidates r
  constructor
  · exact byTactic_isAmong history w actor tactics current candidates r
  constructor
  · rcases byThreat_eq_empty_or_chosen t l candidates r with hempty | ⟨e, hchosen⟩
    · exact .inl hempty
    · exact .inr ⟨e, hchosen, contains_of_chosen hchosen⟩
  constructor
  · intro hreach
    rw [byThreat_eq_empty_iff, or_iff_left]
    rintro ⟨lottery, hbuilt, hlt⟩
    exact Int64.not_le.mpr hlt (hreach lottery hbuilt)
  constructor
  · intro lottery e hbuilt hchosen
    exact cut_le_of_chosen hbuilt hchosen
  constructor
  · intro e hkept
    exact current_of_kept hkept
  constructor
  · intro bit hrejected
    obtain ⟨hset, hnameless⟩ := unknown_of_rejected hrejected
    obtain ⟨hsingle, hmember⟩ := TacticSet.mem_setBits.mp hset
    exact ⟨hsingle, hmember, hnameless⟩
  · intro hcandidates hknown
    exact byTactic_isPick hcandidates hknown

/-- Aria and Bram, who are tracked, and a stranger. -/
def clearing : List Candidate :=
  [⟨⟨1, 1⟩, 3.0, .player, none⟩, ⟨⟨2, 1⟩, 4.0, .player, none⟩, ⟨⟨3, 1⟩, 2.0, .creature, none⟩]

def clearingLedger : Ledger := ⟨.ofList [(⟨1, 1⟩, 500), (⟨2, 1⟩, 100)], 0, .empty⟩

theorem clearing_standings :
    standings clearingLedger clearing = [(⟨1, 1⟩, 500), (⟨2, 1⟩, 100)] := by
  decide +kernel

theorem clearing_lottery {lottery : Lottery}
    (hbuilt : Lottery.build {} (standings clearingLedger clearing) = some lottery) :
    lottery.maxThreat = 500 ∧ lottery.cut = 250 := by
  have h := Lottery.isOf_of_build hbuilt
  rw [clearing_standings] at h
  have hmax : lottery.maxThreat = 500 := Option.some.inj (h.max.symm.trans (by decide))
  have hcut : Lottery.cutOf {} 500 = 250 := by decide +kernel
  exact ⟨hmax, h.cut.trans (hmax ▸ hcut)⟩

/-- The cut of 250 leaves Aria. The empty set of tactics picks somebody, and of a set of two
nameless bits one is rejected. -/
theorem clearing_decides :
    let threat := (byThreat {} clearingLedger clearing (.cycle [7])).1
    let holding := (byTactic .ofLog .empty ⟨0, 1⟩ .empty (some ⟨9, 1⟩) clearing (.cycle [7])).1
    let nameless := (byTactic .ofLog .empty ⟨0, 1⟩ ⟨0x300⟩ none clearing (.cycle [7])).1
    threat = .chosen ⟨1, 1⟩ ∧ (∃ e, holding = .chosen e ∨ holding = .kept e) ∧
      ∃ bit, nameless = .rejected bit ∧ Tactic.ofBit? bit = none := by
  dsimp only
  obtain ⟨hamong, -, hsome, hempty, hcut, -, -, hpick⟩ := passes_decide {} clearingLedger .ofLog
    .empty ⟨0, 1⟩ .empty (some ⟨9, 1⟩) clearing (.cycle [7])
  obtain ⟨-, -, -, -, -, -, hrejected, -⟩ := passes_decide {} clearingLedger .ofLog .empty ⟨0, 1⟩
    ⟨0x300⟩ none clearing (.cycle [7])
  have hnameless : (byTactic .ofLog .empty ⟨0, 1⟩ ⟨0x300⟩ none clearing (.cycle [7])).1 =
      .rejected 256 := by decide +kernel
  refine ⟨?_, hpick (by decide) (by decide), 256, hnameless, (hrejected 256 hnameless).2.2⟩
  rcases hsome with hnobody | ⟨e, hchosen, -⟩
  · have htracked := (hempty fun lottery hbuilt => by
      rw [(clearing_lottery hbuilt).1, (clearing_lottery hbuilt).2]
      decide).mp hnobody
    exact absurd htracked (by decide +kernel)
  · obtain ⟨lottery, hbuilt⟩ : ∃ lottery,
        Lottery.build {} (standings clearingLedger clearing) = some lottery := by
      rw [clearing_standings]
      exact Option.isSome_iff_exists.mp (by decide +kernel)
    obtain ⟨v, hv, hle⟩ := hcut lottery e hbuilt hchosen
    rw [(clearing_lottery hbuilt).2] at hle
    have hentry : (e, v) ∈ standings clearingLedger clearing :=
      mem_standings.mpr ⟨hv, hamong e (by rw [hchosen]; rfl)⟩
    simp only [clearing_standings, List.mem_cons, Prod.mk.injEq, List.not_mem_nil, or_false]
      at hentry
    rcases hentry with ⟨rfl, rfl⟩ | ⟨rfl, rfl⟩
    · exact hchosen
    · exact absurd hle (by decide)

end Selection

end Hostility
