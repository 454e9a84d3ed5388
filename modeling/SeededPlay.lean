import SeededPlay.Number.Rounding
import SeededPlay.Number.Binary64
import SeededPlay.Number.Decimal
import SeededPlay.Number.Basic
import SeededPlay.Number.Notation
import SeededPlay.Number.Reading
import SeededPlay.Number.Sine
import SeededPlay.Text.WordTable
import SeededPlay.Text.PrintableTable
import SeededPlay.Text.CaseTable
import SeededPlay.Text.Classes
import SeededPlay.Text.Basic
import SeededPlay.Text.Quoted
import SeededPlay.Text.Json
import SeededPlay.Fields
import SeededPlay.Datum
import SeededPlay.Vocabulary
import SeededPlay.Terms
import SeededPlay.Fault
import SeededPlay.Numeric
import SeededPlay.Attempt
import SeededPlay.Settings
import SeededPlay.Record.Check
import SeededPlay.Rules.Rule
import SeededPlay.Rules.Token
import SeededPlay.Rules.Phrase
import SeededPlay.Rules.Effect
import SeededPlay.Rules.Condition
import SeededPlay.Rules.Lint
import SeededPlay.Rules.Bundle
import SeededPlay.Rules.Engine
import SeededPlay.SeedCode.Segment
import SeededPlay.SeedCode.Code
import SeededPlay.Hash.Sha256
import SeededPlay.Draw.Stream
import SeededPlay.Draw.Hexadecimal
import SeededPlay.Draw.Audit
import SeededPlay.Play.State
import SeededPlay.Play.Scene
import SeededPlay.Play.Session
import SeededPlay.Chaos.Level
import SeededPlay.Chaos.Mutation
import SeededPlay.Chaos.Undo
import SeededPlay.Chaos.Config
import SeededPlay.Chaos.Scheduler
import SeededPlay.Game.Loops
import SeededPlay.Game.Choices
import SeededPlay.Game.Seed
import SeededPlay.Game.World
import SeededPlay.Game.Difficulty
import SeededPlay.Game.Review
import SeededPlay.Game.Game
import SeededPlay.CommandLine.Arguments
import SeededPlay.CommandLine.Terminal
import SeededPlay.CommandLine.Report
import SeededPlay.CommandLine.Command
import SeededPlay.Main
import SeededPlay.Proofs.Number.Exact
import SeededPlay.Proofs.Draw.Place
import SeededPlay.Proofs.Number.Shortest
import SeededPlay.Proofs.Number.Numerals
import SeededPlay.Proofs.Attempt
import SeededPlay.Proofs.Rules.Amount
import SeededPlay.Proofs.Rules.ScoreText
import SeededPlay.Proofs.Rules.Engine
import SeededPlay.Proofs.Chaos.Flip
import SeededPlay.Proofs.Chaos.Undo
import SeededPlay.Proofs.Chaos.Scheduler
import SeededPlay.Proofs.Chaos.Calls
import SeededPlay.Proofs.Chaos.Consistency
import SeededPlay.Proofs.Chaos.Success
import SeededPlay.Proofs.Chaos.Promises
import SeededPlay.Proofs.Chaos.Activation
import SeededPlay.Proofs.Chaos.Twins
import SeededPlay.Proofs.Chaos.Schedule
import SeededPlay.Proofs.Chaos.Parameters
import SeededPlay.Proofs.Chaos.Layers
import SeededPlay.Proofs.Game.Rules
import SeededPlay.Proofs.Chaos.Unwinding
import SeededPlay.Proofs.SeedCode.Segment
import SeededPlay.Proofs.Rules.Tokens
import SeededPlay.Proofs.Rules.Grammar
import SeededPlay.Proofs.Rules.Conditions
import SeededPlay.Proofs.SeedCode.Code
import SeededPlay.Proofs.SeedCode.Decode
import SeededPlay.Proofs.Game.Readable
import SeededPlay.Proofs.Game.Restore
import SeededPlay.Proofs.Chaos.Frame
import SeededPlay.Proofs.Play.Interpreter
import SeededPlay.Proofs.Play.Ledger
import SeededPlay.Proofs.Play.Balance
import SeededPlay.Proofs.Chaos.Supply
import SeededPlay.Proofs.Number.Quotient
import SeededPlay.Proofs.Chaos.Occasions
import SeededPlay.Proofs.Number.Range
import SeededPlay.Proofs.Number.Half
import SeededPlay.Proofs.Number.Order
import SeededPlay.Proofs.Chaos.Milestones
import SeededPlay.Proofs.Play.Causes
import SeededPlay.Proofs.Play.Registration
import SeededPlay.Proofs.Chaos.Pairs
import SeededPlay.Proofs.Chaos.Lifetimes
import SeededPlay.Proofs.Play.Clock
import SeededPlay.Proofs.Chaos.Permissive
import SeededPlay.Proofs.Play.Limits
import SeededPlay.Proofs.Play.Totality
import SeededPlay.Proofs.SeedCode.Total
import SeededPlay.Proofs.Record.Reload
import SeededPlay.Proofs.Game.Payload
import SeededPlay.Proofs.Chaos.Roundtrip
import SeededPlay.Proofs.Chaos.Reversal
import SeededPlay.Proofs.Chaos.NewLevel
import SeededPlay.Proofs.Chaos.Setup
import SeededPlay.Proofs.Chaos.Exhaustion
import SeededPlay.Proofs.SeedCode.Alias
import SeededPlay.Proofs.Chaos.Unseen
import SeededPlay.Proofs.Chaos.Sightings
import SeededPlay.Proofs.SeedCode.Spelling
import SeededPlay.Proofs.SeedCode.Malformed
import SeededPlay.Proofs.SeedCode.Variants
import SeededPlay.Proofs.Number.Nearest
import SeededPlay.Proofs.Chaos.Dominance
import SeededPlay.Proofs.Rules.Comparisons
import SeededPlay.Proofs.Rules.Distinct
import SeededPlay.Proofs.Rules.Merging
import SeededPlay.Proofs.Game.Fingerprint
import SeededPlay.Proofs.Draw.Digits
import SeededPlay.Proofs.Draw.Shares
import SeededPlay.Proofs.Play.Flags
import SeededPlay.Proofs.Game.Climbs
import SeededPlay.Proofs.Rules.Segmentation
import SeededPlay.Proofs.Draw.Evenness
import SeededPlay.Proofs.Game.Blank
