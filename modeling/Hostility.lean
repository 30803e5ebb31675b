import Hostility.Allegiance
import Hostility.Candidate
import Hostility.CommandLine
import Hostility.Config.Basic
import Hostility.Config.Environment
import Hostility.Config.Format
import Hostility.Config.Load
import Hostility.Config.Validation
import Hostility.Controller
import Hostility.DamageLog
import Hostility.Document.Basic
import Hostility.Document.Reader
import Hostility.Document.Word
import Hostility.Document.Writer
import Hostility.Eligibility
import Hostility.Engine.Action
import Hostility.Engine.Alert
import Hostility.Engine.Deception
import Hostility.Engine.Panic
import Hostility.Engine.Setting
import Hostility.Engine.Think
import Hostility.Engine.Threat
import Hostility.Entity.Basic
import Hostility.Entity.Map
import Hostility.Event.Basic
import Hostility.Event.Bus
import Hostility.Event.Format
import Hostility.Health
import Hostility.Ledger
import Hostility.Main
import Hostility.Modifiers
import Hostility.Number.Decimal
import Hostility.Number.Rounding
import Hostility.Number.Saturating
import Hostility.Number.Time
import Hostility.PassiveBias
import Hostility.Position
import Hostility.Profile
import Hostility.Proofs.Asides
import Hostility.Proofs.Belief
import Hostility.Proofs.Calls
import Hostility.Proofs.Courses
import Hostility.Proofs.EventLog
import Hostility.Proofs.Floor
import Hostility.Proofs.Hosting
import Hostility.Proofs.KeptTarget
import Hostility.Proofs.LedgerView
import Hostility.Proofs.Listening
import Hostility.Proofs.Newcomers
import Hostility.Proofs.Picks
import Hostility.Proofs.Sightings
import Hostility.Proofs.Tending
import Hostility.Proofs.ThinkLedger
import Hostility.Proofs.ThinkStages
import Hostility.Random.Keystream
import Hostility.Random.Source
import Hostility.Selection.Choice
import Hostility.Selection.Distance
import Hostility.Selection.Lottery
import Hostility.Sensing
import Hostility.Simulation.Basic
import Hostility.Simulation.Report
import Hostility.Simulation.Run
import Hostility.Stealth
import Hostility.Tactic
import Hostility.Targetable
import Hostility.Text.Alphanumeric
import Hostility.Text.Name
import Hostility.Tolerance
import Hostility.Tuning
import Hostility.World.Basic
import Hostility.World.Components
import Hostility.World.Edit
import Hostility.World.Lemmas
import Hostility.Proofs.Turns
import Hostility.Proofs.Composure
import Hostility.Proofs.FriendlyFire
import Hostility.Proofs.CallSpacing
import Hostility.Proofs.Forgetting
import Hostility.Proofs.AmountRounding
import Hostility.Proofs.PassiveCeiling
import Hostility.Proofs.Awakenings
import Hostility.Proofs.Beats
import Hostility.Proofs.SingleHop
import Hostility.Proofs.LockedTarget
import Hostility.Proofs.Pieces
import Hostility.Proofs.GainLog
import Hostility.Proofs.Decay
import Hostility.Proofs.CarriedGain
import Hostility.Proofs.Casting
import Hostility.Proofs.Ordeals
import Hostility.Proofs.ScriptedHits
import Hostility.Proofs.Refusals
import Hostility.Proofs.Natures
import Hostility.Proofs.Provocations
import Hostility.Proofs.Increases
import Hostility.Proofs.OneShots
import Hostility.Proofs.SparedKinds
import Hostility.Proofs.Recollection
import Hostility.Proofs.StaleSources
import Hostility.Proofs.Heeding
import Hostility.Proofs.Answers
import Hostility.Proofs.Bystanders
import Hostility.Proofs.LedgerLaws
import Hostility.Proofs.Outlooks
import Hostility.Proofs.LegacyActors
import Hostility.Proofs.Warrants
import Hostility.Proofs.Admissions
import Hostility.Proofs.ReservedNames
import Hostility.Proofs.Registries
import Hostility.Proofs.Fallen
import Hostility.Proofs.LotteryOdds
import Hostility.Proofs.Rerolls
import Hostility.Proofs.PassiveRaises
import Hostility.Proofs.Standings
import Hostility.Proofs.Unseen
import Hostility.Proofs.Decisions
import Hostility.Proofs.WinStreaks
import Hostility.Proofs.RollCall
import Hostility.Proofs.Pruning
import Hostility.Proofs.Latitude
import Hostility.Proofs.DamageWindow
import Hostility.Proofs.Building
import Hostility.Proofs.Acceptance
import Hostility.Proofs.LotterySorting
import Hostility.Proofs.Spellings
import Hostility.Proofs.Slices
