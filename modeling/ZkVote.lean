import ZkVote.Attestation
import ZkVote.Backend.Approvals
import ZkVote.Backend.AuditChain
import ZkVote.Backend.AuditLog
import ZkVote.Backend.BlastRadius
import ZkVote.Backend.BlindIssuer
import ZkVote.Backend.BlindSignature
import ZkVote.Backend.Ceremony
import ZkVote.Backend.CircuitBreaker
import ZkVote.Backend.ConfirmationBooks
import ZkVote.Backend.ConfirmationQueue
import ZkVote.Backend.ConfirmationRuns
import ZkVote.Backend.Conversions
import ZkVote.Backend.Decryption
import ZkVote.Backend.DiscreteLog
import ZkVote.Backend.EncryptedTally
import ZkVote.Backend.EndpointMoves
import ZkVote.Backend.EndpointPool
import ZkVote.Backend.EndpointRuns
import ZkVote.Backend.EventPages
import ZkVote.Backend.Indexer
import ZkVote.Backend.IndexerRuns
import ZkVote.Backend.KeyManager
import ZkVote.Backend.Operations
import ZkVote.Backend.PaymentRuns
import ZkVote.Backend.Payments
import ZkVote.Backend.ProofSerialization
import ZkVote.Backend.Registrations
import ZkVote.Backend.RelayRetries
import ZkVote.Backend.Replay
import ZkVote.Backend.ReplayRuns
import ZkVote.Backend.ReplayValues
import ZkVote.Backend.SchedulerRuns
import ZkVote.Backend.SerialSubmission
import ZkVote.Backend.Shutdown
import ZkVote.Backend.SigningPolicy
import ZkVote.Backend.SigningTiers
import ZkVote.Backend.StellarAmount
import ZkVote.Backend.SubmitLedger
import ZkVote.Backend.SubmitQueue
import ZkVote.Backend.ThresholdElGamal
import ZkVote.Backend.ThresholdTally
import ZkVote.Backend.Vdf
import ZkVote.Backend.VerifiedEvents
import ZkVote.Backend.VoteCommitment
import ZkVote.Backend.VoteRelay
import ZkVote.Backend.WatermarkScheduler
import ZkVote.Bridge.Contract
import ZkVote.Bridge.Forwarding
import ZkVote.Circuits.Current
import ZkVote.Circuits.Registry
import ZkVote.Circuits.Upgrades
import ZkVote.Comments.Ballots
import ZkVote.Comments.Contract
import ZkVote.Comments.Records
import ZkVote.Deployment
import ZkVote.Eligibility
import ZkVote.Frontend.MerkleTree
import ZkVote.Groth16.Batch
import ZkVote.Groth16.Canonical
import ZkVote.Groth16.Verifier
import ZkVote.Host
import ZkVote.Lib.BigInt
import ZkVote.Lib.Bytes
import ZkVote.Lib.Decimal
import ZkVote.Lib.Euclid
import ZkVote.Lib.Fourier
import ZkVote.Lib.Hades
import ZkVote.Lib.HashChain
import ZkVote.Lib.History
import ZkVote.Lib.Json
import ZkVote.Lib.JsonText
import ZkVote.Lib.Merkle
import ZkVote.Lib.Outcome
import ZkVote.Lib.Paging
import ZkVote.Lib.Primes
import ZkVote.Lib.Quorum
import ZkVote.Lib.Reading
import ZkVote.Lib.Runs
import ZkVote.Lib.Sha256
import ZkVote.Lib.Shamir
import ZkVote.Lib.SlidingWindow
import ZkVote.Lib.Storage
import ZkVote.Lib.Totals
import ZkVote.Nova.Aggregator
import ZkVote.Nova.Membership
import ZkVote.Nova.Separation
import ZkVote.Nova.Soundness
import ZkVote.Pins
import ZkVote.Prover.BinFile
import ZkVote.Prover.Completeness
import ZkVote.Prover.Fft
import ZkVote.Prover.Field
import ZkVote.Prover.Groth16
import ZkVote.Prover.Parsing
import ZkVote.Prover.Poseidon
import ZkVote.Registry.Contract
import ZkVote.Registry.Idempotency
import ZkVote.Registry.Keepalive
import ZkVote.Registry.Multisig
import ZkVote.Registry.Rollback
import ZkVote.Registry.Steps
import ZkVote.Registry.Timelock
import ZkVote.Registry.Upgrades
import ZkVote.Rewards.Contract
import ZkVote.Rewards.Treasury
import ZkVote.Sbt.Contract
import ZkVote.Sbt.ElectionCooldown
import ZkVote.Sbt.Members
import ZkVote.Sbt.Steps
import ZkVote.Sbt.Weight
import ZkVote.Storage.Accesses
import ZkVote.Storage.Safety
import ZkVote.Templates.Claim
import ZkVote.Templates.Membership
import ZkVote.Templates.OneBallot
import ZkVote.Templates.Quadratic
import ZkVote.Templates.SybilWeight
import ZkVote.Templates.Vote
import ZkVote.Threshold.Contract
import ZkVote.Threshold.Dkg
import ZkVote.Token.Allowances
import ZkVote.Token.Backing
import ZkVote.Token.Batches
import ZkVote.Token.Checkpoints
import ZkVote.Token.Clawbacks
import ZkVote.Token.Contract
import ZkVote.Token.Custody
import ZkVote.Token.Debits
import ZkVote.Token.Overflows
import ZkVote.Token.Pieces
import ZkVote.Token.Safety
import ZkVote.Token.State
import ZkVote.Token.Steps
import ZkVote.Token.Supply
import ZkVote.Transcripts.Registry
import ZkVote.Tree.Asides
import ZkVote.Tree.Contract
import ZkVote.Tree.Cooldown
import ZkVote.Tree.Evictions
import ZkVote.Tree.Exclusion
import ZkVote.Tree.History
import ZkVote.Tree.Indices
import ZkVote.Tree.Keepalive
import ZkVote.Tree.Levels
import ZkVote.Tree.Migration
import ZkVote.Tree.Priority
import ZkVote.Tree.Progress
import ZkVote.Tree.Reinstatement
import ZkVote.Tree.Revocation
import ZkVote.Tree.RootCap
import ZkVote.Tree.Roots
import ZkVote.Tree.Spec
import ZkVote.Tree.State
import ZkVote.Tree.Steps
import ZkVote.Vdf
import ZkVote.Voting.Accumulator
import ZkVote.Voting.Admin
import ZkVote.Voting.Authority
import ZkVote.Voting.Ballots
import ZkVote.Voting.BatchVotes
import ZkVote.Voting.Batches
import ZkVote.Voting.Ceremonies
import ZkVote.Voting.Checks
import ZkVote.Voting.Commitments
import ZkVote.Voting.Contract
import ZkVote.Voting.Creation
import ZkVote.Voting.Deadlines
import ZkVote.Voting.Effects
import ZkVote.Voting.Elections
import ZkVote.Voting.Epochs
import ZkVote.Voting.Finality
import ZkVote.Voting.Footprints
import ZkVote.Voting.KeyPins
import ZkVote.Voting.Keys
import ZkVote.Voting.Lock
import ZkVote.Voting.Nullifiers
import ZkVote.Voting.Pause
import ZkVote.Voting.Phases
import ZkVote.Voting.Quadratic
import ZkVote.Voting.Randomness
import ZkVote.Voting.Sealed
import ZkVote.Voting.Seed
import ZkVote.Voting.Setters
import ZkVote.Voting.Settings
import ZkVote.Voting.Signals
import ZkVote.Voting.Slots
import ZkVote.Voting.State
import ZkVote.Voting.Steps
import ZkVote.Voting.SybilBound
import ZkVote.Voting.Tally
import ZkVote.Voting.TallyBound
import ZkVote.Voting.Terms
import ZkVote.Voting.Twab
import ZkVote.Voting.Unrevealed
import ZkVote.Voting.VdfDelay
import ZkVote.Voting.Weighted
