import Permits.Call
import Permits.Command
import Permits.Duration
import Permits.Failure
import Permits.Failure.Kind
import Permits.Failure.Raised
import Permits.Failure.Raised.Coding
import Permits.Failure.Raised.Located
import Permits.Failure.Raised.Parameters
import Permits.Failure.Raised.Redirected
import Permits.Failure.Raised.System
import Permits.Failure.Refusal
import Permits.Identifier
import Permits.ListStore
import Permits.Lists.Basic
import Permits.Lists.Execute
import Permits.Name.Basic
import Permits.Name.Check
import Permits.Number.Decimal
import Permits.Number.Double
import Permits.Number.Numeral
import Permits.Op.Basic
import Permits.Op.Run
import Permits.Permit
import Permits.Proofs.Account.Basic
import Permits.Proofs.Account.Commands
import Permits.Proofs.Account.Operations
import Permits.Proofs.Acquiring
import Permits.Proofs.Agreement
import Permits.Proofs.Audit
import Permits.Proofs.Blocks
import Permits.Proofs.Conditions
import Permits.Proofs.Conduct
import Permits.Proofs.Content.Agreement
import Permits.Proofs.Content.Basic
import Permits.Proofs.Course
import Permits.Proofs.Delivery
import Permits.Proofs.Demands
import Permits.Proofs.Draws
import Permits.Proofs.Durations
import Permits.Proofs.Encodings
import Permits.Proofs.Endowment
import Permits.Proofs.Errands.Agreement
import Permits.Proofs.Errands.Basic
import Permits.Proofs.Exactness
import Permits.Proofs.Exclusion
import Permits.Proofs.Interruption
import Permits.Proofs.Journal
import Permits.Proofs.Keys
import Permits.Proofs.Lists
import Permits.Proofs.Minting
import Permits.Proofs.Numerals
import Permits.Proofs.Order
import Permits.Proofs.Outlets
import Permits.Proofs.Receipts
import Permits.Proofs.Registration
import Permits.Proofs.Releasing
import Permits.Proofs.Requests
import Permits.Proofs.Rounding
import Permits.Proofs.Routine
import Permits.Proofs.Solo
import Permits.Proofs.Spelling
import Permits.Proofs.Styles.Agreement
import Permits.Proofs.Styles.Basic
import Permits.Proofs.Timeouts
import Permits.Proofs.Validation
import Permits.Proofs.Views
import Permits.Proofs.Waiting
import Permits.Proofs.World.Accounts
import Permits.Proofs.World.Basic
import Permits.Proofs.World.Conservation
import Permits.Proofs.World.Release
import Permits.Proofs.World.Replay
import Permits.Proofs.World.Service
import Permits.Record
import Permits.Registry
import Permits.Reply
import Permits.Semaphore
import Permits.Semaphore.Minting
import Permits.Semaphore.Mixed
import Permits.Simulation.Machine
import Permits.Simulation.Minting
import Permits.Simulation.Session.Action
import Permits.Simulation.Session.Basic
import Permits.Simulation.Session.Run
import Permits.Simulation.Session.Single
import Permits.Simulation.Source
import Permits.Simulation.Step
import Permits.Simulation.Term
import Permits.Text.Class
import Permits.Text.Coding
import Permits.Text.Quoted
import Permits.Text.Utf8
import Permits.Value.Basic
import Permits.Value.Shown
