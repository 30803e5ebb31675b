import Hostility.Proofs.Hosting
import Mathlib.Data.List.Induction

/-!
Runs beat by beat. An update is taken apart: the timers advance and old alerts are forgotten, and
then the due actors think one after the other. So every think of a run, whether it was asked for or
comes with an update, is a beat of its own.
-/
namespace Hostility

open Hostility.Action

variable {setting : Setting} {s : State}

/-- What an update does before anyone thinks. -/
def Engine.advance (t : Tuning) (seconds : Float32) : Action Unit := do
  let s ← Action.state
  Action.setWorld (s.world.updateAll (elapse seconds))
  Action.setAlerts (Alert.expire t s.alerts s.now)

inductive Beat where
  | move (move : Move)
  | advance (seconds : Float32)

namespace Beat

abbrev think (actor : Entity) : Beat := .move (.ask (.think actor))

def perform (setting : Setting) : Beat → Action Unit
  | move m => m.perform setting
  | advance seconds => Engine.advance setting.tuning seconds

end Beat

/-- One beat after the other. -/
def playBeats (setting : Setting) (beats : List Beat) : Action Unit :=
  Action.forEach (Beat.perform setting) beats

/-- The beats of a move that is made in a given state. -/
def Move.beats (s : State) : Move → List Beat
  | .ask (.update seconds) =>
    let w := s.world.updateAll (Engine.elapse seconds)
    .advance seconds :: (w.entities.filter (Engine.isDue w)).map .think
  | move => [.move move]

def beatsOf (setting : Setting) : List Move → State → List Beat
  | [], _ => []
  | move :: rest, s => move.beats s ++ beatsOf setting rest (move.perform setting s).state

/-- The beats that the given moves may be made of. -/
inductive Beat.IsOf (moves : List Move) : Beat → Prop
  | advance (seconds : Float32) : IsOf moves (.advance seconds)
  | think (actor : Entity) : IsOf moves (.think actor)
  | move {m : Move} (mem : m ∈ moves) (single : ∀ seconds, m ≠ .ask (.update seconds)) :
    IsOf moves (.move m)

theorem Beat.IsOf.mono {moves moves' : List Move} {beat : Beat} (h : beat.IsOf moves)
    (hmoves : moves ⊆ moves') : beat.IsOf moves' := by
  cases h with
  | advance seconds => exact .advance seconds
  | think actor => exact .think actor
  | move mem single => exact .move (hmoves mem) single

theorem isOf_of_mem_beatsOf {moves : List Move} {s : State} {beat : Beat}
    (h : beat ∈ beatsOf setting moves s) : beat.IsOf moves := by
  induction moves generalizing s with
  | nil => cases h
  | cons move moves ih =>
    rcases List.mem_append.mp h with h | h
    · unfold Move.beats at h
      split at h
      · rcases List.mem_cons.mp h with rfl | h
        · exact .advance _
        · obtain ⟨actor, -, rfl⟩ := List.mem_map.mp h
          exact .think actor
      · next hsingle =>
        obtain rfl := List.mem_singleton.mp h
        exact .move (by simp) hsingle
    · exact (ih h).mono (List.subset_cons_self move moves)

theorem Move.result_perform (setting : Setting) (move : Move) (s : State) :
    (move.perform setting s).result = .ok () := by
  cases move with
  | host change => rfl
  | ask request => cases request <;> rfl

theorem playBeats_cons (beat : Beat) (beats : List Beat) (s : State) :
    let first := beat.perform setting s
    let rest := playBeats setting beats first.state
    playBeats setting (beat :: beats) s =
      ⟨rest.result, rest.state, first.events ++ rest.events⟩ := by
  have hfirst : (beat.perform setting s).result = .ok () := by
    cases beat with
    | move move => exact move.result_perform setting s
    | advance seconds => rfl
  exact bind_of_ok hfirst

theorem result_playBeats (setting : Setting) (beats : List Beat) (s : State) :
    (playBeats setting beats s).result = .ok () := by
  induction beats generalizing s with
  | nil => rfl
  | cons beat beats ih =>
    rw [playBeats_cons]
    exact ih _

theorem playBeats_append (beats beats' : List Beat) (s : State) :
    let first := playBeats setting beats s
    let rest := playBeats setting beats' first.state
    playBeats setting (beats ++ beats') s =
      ⟨rest.result, rest.state, first.events ++ rest.events⟩ := by
  have hsplit : playBeats setting (beats ++ beats') =
      playBeats setting beats >>= fun _ => playBeats setting beats' := forEach_append _ _ _
  intro first rest
  rw [hsplit, bind_of_ok (result_playBeats setting beats s)]

/-- The last beat of a run is played in the state that the others lead to. -/
theorem state_playBeats_snoc (beats : List Beat) (beat : Beat) (s : State) :
    (playBeats setting (beats ++ [beat]) s).state =
      (beat.perform setting (playBeats setting beats s).state).state := by
  rw [playBeats_append, playBeats_cons]
  rfl

theorem playBeats_thinks (due : List Entity) (s : State) :
    playBeats setting (due.map .think) s =
      forEach (fun actor => regardless (Engine.think setting actor)) due s := by
  induction due generalizing s with
  | nil => rfl
  | cons actor due ih =>
    have hrun : forEach (fun actor => regardless (Engine.think setting actor)) (actor :: due) s =
        _ := bind_of_ok (a := ()) rfl
    rw [List.map_cons, playBeats_cons, ih, hrun]
    rfl

theorem Engine.update_run (setting : Setting) (seconds : Float32) (s : State) :
    let advanced := (advance setting.tuning seconds s).state
    let due := advanced.world.entities.filter (isDue advanced.world)
    let thought := forEach (fun actor => regardless (think setting actor)) due advanced
    update setting seconds s = ⟨.ok due.length, thought.state, thought.events⟩ := by
  intro advanced due thought
  have hthought : thought.result = .ok () := by
    rw [show thought = _ from (playBeats_thinks due advanced).symm]
    exact result_playBeats setting _ _
  have hrun : update setting seconds s = _ := bind_of_ok (f := fun _ => pure due.length) hthought
  rw [hrun]
  show Outcome.mk (.ok due.length) thought.state (thought.events ++ []) = _
  rw [List.append_nil]

/-- The beats of a move do what the move does. -/
theorem Move.playBeats_beats (move : Move) (s : State) :
    playBeats setting (move.beats s) s = move.perform setting s := by
  have hsingle (m : Move) : playBeats setting [.move m] s = m.perform setting s := by
    have hdone := m.result_perform setting s
    have hrun : playBeats setting [.move m] s = _ := bind_of_ok hdone
    rw [hrun]
    show Outcome.mk (.ok ()) (m.perform setting s).state ((m.perform setting s).events ++ []) = _
    rw [List.append_nil, ← hdone]
  cases move with
  | host change => exact hsingle (.host change)
  | ask request =>
    cases request with
    | update seconds =>
      let advanced := (Engine.advance setting.tuning seconds s).state
      let due := advanced.world.entities.filter (Engine.isDue advanced.world)
      have hdone := result_playBeats setting (due.map .think) advanced
      show playBeats setting (.advance seconds :: due.map .think) s =
        regardless (Engine.update setting seconds) s
      rw [playBeats_cons, regardless, Engine.update_run]
      rw [playBeats_thinks] at hdone ⊢
      rw [show Beat.perform setting (.advance seconds) s = Engine.advance setting.tuning seconds s
        from rfl, hdone]
      rfl
    | _ => exact hsingle (.ask _)

theorem playOut_cons (setting : Setting) (move : Move) (moves : List Move) (s : State) :
    let first := move.perform setting s
    let rest := playOut setting moves first.state
    playOut setting (move :: moves) s = ⟨rest.result, rest.state, first.events ++ rest.events⟩ :=
  bind_of_ok (move.result_perform setting s)

theorem playBeats_beatsOf (moves : List Move) (s : State) :
    playBeats setting (beatsOf setting moves s) s = playOut setting moves s := by
  induction moves generalizing s with
  | nil => rfl
  | cons move moves ih =>
    rw [beatsOf, playBeats_append, Move.playBeats_beats, ih, playOut_cons]

/-- The events of a run around two of its beats. -/
theorem playOut_events_around {moves : List Move} {earlier between later : List Beat}
    {first second : Beat}
    (hbeats : beatsOf setting moves s = earlier ++ first :: (between ++ second :: later)) :
    let before := playBeats setting earlier s
    let done := first.perform setting before.state
    let waited := playBeats setting between done.state
    let again := second.perform setting waited.state
    ∃ rest, (playOut setting moves s).events =
      before.events ++ (done.events ++ (waited.events ++ (again.events ++ rest))) := by
  intro before done waited again
  refine ⟨(playBeats setting later again.state).events, ?_⟩
  rw [← playBeats_beatsOf, hbeats, playBeats_append, playBeats_cons, playBeats_append,
    playBeats_cons]

/-- Some beat of a run is to blame for how an actor stands to somebody. -/
def Blamed (setting : Setting) (blames : State → Beat → Entity → Entity → Prop) (s : State)
    (beats : List Beat) (actor e : Entity) : Prop :=
  ∃ earlier beat rest, beats = earlier ++ beat :: rest ∧
    blames (playBeats setting earlier s).state beat actor e

/-- What every beat keeps, but for the pairs that it is to blame for, holds at the end of a run but
for the pairs that some beat is to blame for. -/
theorem playBeats_but_blamed {blames : State → Beat → Entity → Entity → Prop}
    (HoldsBut : (Entity → Entity → Prop) → State → Prop) {moves : List Move}
    (hmono : ∀ {known known' s}, (∀ actor e, known actor e → known' actor e) →
      HoldsBut known s → HoldsBut known' s)
    (hstep : ∀ {known s beat}, beat.IsOf moves →
      (∀ actor e, blames s beat actor e → known actor e) → HoldsBut known s →
      HoldsBut known (beat.perform setting s).state)
    {beats : List Beat} (hbeats : ∀ beat ∈ beats, beat.IsOf moves)
    (hstart : HoldsBut (fun _ _ => False) s) :
    HoldsBut (Blamed setting blames s beats) (playBeats setting beats s).state := by
  induction beats using List.reverseRecOn with
  | nil => exact hmono (fun _ _ h => h.elim) hstart
  | append_singleton beats beat ih =>
    have hbefore := ih fun b hb => hbeats b (by simp [hb])
    rw [state_playBeats_snoc]
    refine hstep (hbeats beat (by simp)) ?_ (hmono ?_ hbefore)
    · intro actor e hblames
      exact ⟨beats, beat, [], rfl, hblames⟩
    · rintro actor e ⟨earlier, b, rest, rfl, hblames⟩
      exact ⟨earlier, b, rest ++ [beat], by simp, hblames⟩

end Hostility
