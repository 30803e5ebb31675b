import Hostility.Config.Basic
import Hostility.Config.Environment
import Hostility.Document.Basic

/-!
Configurations as documents. Fields that are not known are passed over, those that are left out take
their defaults, and everything else has to be exactly of its kind. Where a text is wanted the quotes
may be missing: any word is then taken as it is written.
-/
namespace Hostility

def Position.ofDatum? (d : Datum) : Option Position :=
  match d.listOf? Datum.float? with
  | some [x, y, z] => some ⟨x, y, z⟩
  | _ => none

def TacticSet.ofDatum? (d : Datum) : Option TacticSet :=
  (d.natOfBits? 16).map fun n => ⟨UInt16.ofNat n⟩

def ToleranceSet.ofDatum? (d : Datum) : Option ToleranceSet :=
  (d.natOfBits? 8).map fun n => ⟨UInt8.ofNat n⟩

def Faction.ofDatum? (d : Datum) : Option Faction := (d.natOfBits? 32).map Faction.mk

def Profile.ofDatum? (d : Datum) : Option Profile := do
  let fs : Fields ← d.fields?
  let p : Profile := {}
  return {
    visualRange := ← fs.withDefault "visual_range" Datum.float? p.visualRange
    auralRange := ← fs.withDefault "aural_range" Datum.float? p.auralRange
    chaseRange := ← fs.withDefault "chase_range" Datum.float? p.chaseRange
    perception := ← fs.withDefault "perception" (Datum.natOfBits? 32) p.perception
    legacyMode := ← fs.withDefault "legacy_mode" Datum.bool? p.legacyMode
    tactics := ← fs.withDefault "tactics" TacticSet.ofDatum? p.tactics
    tolerances := ← fs.withDefault "tolerances" ToleranceSet.ofDatum? p.tolerances
    thinkInterval := ← fs.withDefault "think_interval" Datum.float32? p.thinkInterval }

def Tuning.ofDatum? (d : Datum) : Option Tuning := do
  let fs : Fields ← d.fields?
  let t : Tuning := {}
  return {
    threatMinimum := ← fs.withDefault "threat_minimum" Datum.amount? t.threatMinimum
    minimumThreatGain := ← fs.withDefault "minimum_threat_gain" Datum.amount? t.minimumThreatGain
    decayFraction := ← fs.withDefault "decay_fraction" Datum.float? t.decayFraction
    aggroRangeFraction :=
      ← fs.withDefault "aggro_range_fraction" Datum.float? t.aggroRangeFraction
    passiveTargetPct := ← fs.withDefault "passive_target_pct" Datum.float? t.passiveTargetPct
    passivePlayerFavor :=
      ← fs.withDefault "passive_player_favor" Datum.float? t.passivePlayerFavor
    passiveSmoothing := ← fs.withDefault "passive_smoothing" Datum.float? t.passiveSmoothing
    passiveStreakThreshold :=
      ← fs.withDefault "passive_streak_threshold" (Datum.natOfBits? 32) t.passiveStreakThreshold
    passiveStreakPenalty :=
      ← fs.withDefault "passive_streak_penalty" Datum.amount? t.passiveStreakPenalty
    abilityReadinessThreshold :=
      ← fs.withDefault "ability_readiness_threshold" Datum.float32? t.abilityReadinessThreshold
    provokeMultiplier := ← fs.withDefault "provoke_multiplier" Datum.float? t.provokeMultiplier
    smokescreenMultiplier :=
      ← fs.withDefault "smokescreen_multiplier" Datum.float? t.smokescreenMultiplier
    deceptionFactor := ← fs.withDefault "deception_factor" Datum.float? t.deceptionFactor
    deceptionAbilityBonus :=
      ← fs.withDefault "deception_ability_bonus" Datum.float? t.deceptionAbilityBonus
    maxDeceptionRerolls :=
      ← fs.withDefault "max_deception_rerolls" (Datum.natOfBits? 64) t.maxDeceptionRerolls
    alertCooldownSecs := ← fs.withDefault "alert_cooldown_secs" Datum.amount? t.alertCooldownSecs
    reservedNames :=
      ← fs.withDefault "reserved_names" (Datum.listOf? Datum.word?) t.reservedNames }

/-- A seed is a number, or a text that is one after its references are replaced. -/
def readSeed? (env : Environment) (d : Datum) : Option UInt64 :=
  match d.resolved with
  | .text s => do
    let expanded ← env.expandText s
    return UInt64.ofNat (← plainNumber? UInt64.size expanded)
  | d => (d.natOfBits? 64).map UInt64.ofNat

def HostSettings.ofDatum? (env : Environment) (d : Datum) : Option HostSettings := do
  let fs : Fields ← d.fields?
  let h : HostSettings := {}
  return {
    seed := ← fs.withDefault "seed" (readSeed? env) h.seed
    ticks := ← fs.withDefault "ticks" (Datum.natOfBits? 32) h.ticks
    tickSeconds := ← fs.withDefault "tick_seconds" Datum.float32? h.tickSeconds }

def Kinship.ofDatum? (d : Datum) : Option Kinship := do
  let fs : Fields ← d.fields?
  let creatureType ← fs.required "creature_type" Datum.word?
  let friends ← fs.withDefault "friend_types" (Datum.listOf? Datum.word?) []
  return Kinship.ofFriends creatureType friends

def ActorTemplate.ofDatum? (d : Datum) : Option ActorTemplate := do
  let fs : Fields ← d.fields?
  return {
    name := ← fs.required "name" Datum.word?
    position := ← fs.required "position" Position.ofDatum?
    faction := ← fs.withDefault "faction" Faction.ofDatum? .neutral
    kinship := ← fs.withDefault "kinship" Kinship.ofDatum? default
    profile := ← fs.withDefault "profile" Profile.ofDatum? {}
    level := ← fs.withDefault "level" (Datum.natOfBits? 32) 1 }

def CandidateTemplate.ofDatum? (d : Datum) : Option CandidateTemplate := do
  let fs : Fields ← d.fields?
  let kind? (d : Datum) : Option CandidateKind := d.word?.bind CandidateKind.ofName?
  return {
    name := ← fs.required "name" Datum.word?
    position := ← fs.required "position" Position.ofDatum?
    kind := ← fs.withDefault "kind" kind? .player
    faction := ← fs.withDefault "faction" Faction.ofDatum? .neutral
    level := ← fs.withDefault "level" (Datum.natOfBits? 32) 1
    passiveThreshold :=
      ← fs.withDefault "passive_threshold" (Datum.optional? Datum.amount?) none
    hides := ← fs.withDefault "hiding" Datum.bool? false
    deception := ← fs.withDefault "deception" (Datum.natOfBits? 32) 0 }

def ScriptedHit.ofDatum? (d : Datum) : Option ScriptedHit := do
  let fs : Fields ← d.fields?
  return {
    tick := ← fs.required "tick" (Datum.natOfBits? 32)
    attacker := ← fs.required "attacker" Datum.word?
    victim := ← fs.required "victim" Datum.word?
    amount := ← fs.required "amount" Datum.amount? }

def Scenario.ofDatum? (d : Datum) : Option Scenario := do
  let fs : Fields ← d.fields?
  return {
    actors := ← fs.withDefault "actors" (Datum.listOf? ActorTemplate.ofDatum?) []
    candidates := ← fs.withDefault "candidates" (Datum.listOf? CandidateTemplate.ofDatum?) []
    damage := ← fs.withDefault "damage" (Datum.listOf? ScriptedHit.ofDatum?) [] }

def Configuration.ofDatum? (env : Environment) (d : Datum) : Option Configuration := do
  let fs : Fields ← d.fields?
  return {
    tuning := ← fs.withDefault "tuning" Tuning.ofDatum? {}
    host := ← fs.withDefault "simulation" (HostSettings.ofDatum? env) {}
    scenario := ← fs.withDefault "scenario" Scenario.ofDatum? {} }

def Position.toDatum (p : Position) : Datum := .list [.ofFloat p.x, .ofFloat p.y, .ofFloat p.z]

def Profile.toDatum (p : Profile) : Datum :=
  .record
    [("visual_range", .ofFloat p.visualRange),
      ("aural_range", .ofFloat p.auralRange),
      ("chase_range", .ofFloat p.chaseRange),
      ("perception", .ofNat p.perception),
      ("legacy_mode", .bool p.legacyMode),
      ("tactics", .ofNat p.tactics.bits.toNat),
      ("tolerances", .ofNat p.tolerances.bits.toNat),
      ("think_interval", .ofFloat32 p.thinkInterval)]

def Tuning.toDatum (t : Tuning) : Datum :=
  .record
    [("threat_minimum", .ofAmount t.threatMinimum),
      ("minimum_threat_gain", .ofAmount t.minimumThreatGain),
      ("decay_fraction", .ofFloat t.decayFraction),
      ("aggro_range_fraction", .ofFloat t.aggroRangeFraction),
      ("passive_target_pct", .ofFloat t.passiveTargetPct),
      ("passive_player_favor", .ofFloat t.passivePlayerFavor),
      ("passive_smoothing", .ofFloat t.passiveSmoothing),
      ("passive_streak_threshold", .ofNat t.passiveStreakThreshold),
      ("passive_streak_penalty", .ofAmount t.passiveStreakPenalty),
      ("ability_readiness_threshold", .ofFloat32 t.abilityReadinessThreshold),
      ("provoke_multiplier", .ofFloat t.provokeMultiplier),
      ("smokescreen_multiplier", .ofFloat t.smokescreenMultiplier),
      ("deception_factor", .ofFloat t.deceptionFactor),
      ("deception_ability_bonus", .ofFloat t.deceptionAbilityBonus),
      ("max_deception_rerolls", .ofNat t.maxDeceptionRerolls),
      ("alert_cooldown_secs", .ofAmount t.alertCooldownSecs),
      ("reserved_names", .ofTexts t.reservedNames)]

def HostSettings.toDatum (h : HostSettings) : Datum :=
  .record
    [("seed", .ofNat h.seed.toNat),
      ("ticks", .ofNat h.ticks),
      ("tick_seconds", .ofFloat32 h.tickSeconds)]

def Kinship.toDatum (k : Kinship) : Datum :=
  .record [("creature_type", .text k.creatureType), ("friend_types", .ofTexts k.friendTypes)]

def ActorTemplate.toDatum (a : ActorTemplate) : Datum :=
  .record
    [("name", .text a.name),
      ("position", a.position.toDatum),
      ("faction", .ofNat a.faction.number),
      ("kinship", a.kinship.toDatum),
      ("profile", a.profile.toDatum),
      ("level", .ofNat a.level)]

def CandidateTemplate.toDatum (c : CandidateTemplate) : Datum :=
  .record
    [("name", .text c.name),
      ("position", c.position.toDatum),
      ("kind", .text c.kind.name),
      ("faction", .ofNat c.faction.number),
      ("level", .ofNat c.level),
      ("passive_threshold", .ofOption .ofAmount c.passiveThreshold),
      ("hiding", .bool c.hides),
      ("deception", .ofNat c.deception)]

def ScriptedHit.toDatum (h : ScriptedHit) : Datum :=
  .record
    [("tick", .ofNat h.tick),
      ("attacker", .text h.attacker),
      ("victim", .text h.victim),
      ("amount", .ofAmount h.amount)]

def Scenario.toDatum (s : Scenario) : Datum :=
  .record
    [("actors", .list (s.actors.map (·.toDatum))),
      ("candidates", .list (s.candidates.map (·.toDatum))),
      ("damage", .list (s.damage.map (·.toDatum)))]

def Configuration.toDatum (c : Configuration) : Datum :=
  .record
    [("tuning", c.tuning.toDatum),
      ("simulation", c.host.toDatum),
      ("scenario", c.scenario.toDatum)]

end Hostility
