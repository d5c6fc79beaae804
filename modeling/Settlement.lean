import Settlement.Main
import Settlement.Proofs.Conservation
import Settlement.Proofs.Exclusion
import Settlement.Proofs.Failures
import Settlement.Proofs.Resumption
import Settlement.Proofs.Rivals
import Settlement.Rates.Http
import Settlement.Service.Encoding
import Settlement.Simulation.World
import Settlement.Proofs.Bookkeeping
import Settlement.Proofs.Schedules
import Settlement.Proofs.Ceiling
import Settlement.Proofs.Replay
import Settlement.Proofs.Atomicity
import Settlement.Proofs.Runs
import Settlement.Proofs.Refusals
import Settlement.Proofs.Tables
import Settlement.Proofs.Programs
import Settlement.Proofs.Sessions
import Settlement.Proofs.Agreement
import Settlement.Proofs.OperationTexts
import Settlement.Proofs.Server
import Settlement.Proofs.TwoLedgers
import Settlement.Proofs.TransactionRows
import Settlement.Proofs.TwoStores
import Settlement.Proofs.Sweeps
import Settlement.Proofs.Backlog
import Settlement.Proofs.Verdicts
import Settlement.Proofs.Conversions
import Settlement.Proofs.Overruns
import Settlement.Proofs.Foreign
import Settlement.Proofs.Pages
import Settlement.Proofs.SharedLimits
import Settlement.Proofs.Quotes
import Settlement.Proofs.Amounts
import Settlement.Proofs.OperationKeys
import Settlement.Proofs.Entitlement
import Settlement.Proofs.Cutoffs
import Settlement.Proofs.Excerpts
