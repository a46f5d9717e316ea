import FungibleLedger.Json.Display
import FungibleLedger.Ledger.Dispatch
import FungibleLedger.Main
import FungibleLedger.Storage.Database
import FungibleLedger.Storage.Layers
import FungibleLedger.Proofs.Amount
import FungibleLedger.Proofs.Storage.Buffer
import FungibleLedger.Proofs.Storage.Namespaces
import FungibleLedger.Proofs.Ledger.Token
import FungibleLedger.Proofs.Ledger.Records
import FungibleLedger.Proofs.Ledger.Writes
import FungibleLedger.Proofs.Host.Calls
import FungibleLedger.Proofs.Host.Atomicity
import FungibleLedger.Proofs.Address
import FungibleLedger.Proofs.Ledger.Refinement
import FungibleLedger.Proofs.Ledger.Effects
import FungibleLedger.Proofs.Host.Refinement
import FungibleLedger.Proofs.Host.Runs
import FungibleLedger.Proofs.Ledger.Conservation
import FungibleLedger.Proofs.Ledger.Holders
import FungibleLedger.Proofs.Ledger.Genesis
import FungibleLedger.Proofs.Host.Invariant
import FungibleLedger.Proofs.Host.Conservation
import FungibleLedger.Proofs.Host.Allowances
import FungibleLedger.Proofs.Ledger.Balances
import FungibleLedger.Proofs.Host.Consent
import FungibleLedger.Proofs.Storage.Overlay
import FungibleLedger.Proofs.Metadata
import FungibleLedger.Proofs.Host.Starts
import FungibleLedger.Proofs.Host.WriteOnce
import FungibleLedger.Proofs.Ledger.Faults
import FungibleLedger.Proofs.Host.Faults
import FungibleLedger.Proofs.Storage.Backends
import FungibleLedger.Proofs.Ledger.Layout
import FungibleLedger.Proofs.Host.Independence
import FungibleLedger.Proofs.Host.Representation
import FungibleLedger.Proofs.Host.Announcements
import FungibleLedger.Proofs.Storage.Isolation
import FungibleLedger.Proofs.Ledger.Seeding
import FungibleLedger.Proofs.Ledger.Failures
import FungibleLedger.Proofs.Host.Failures
import FungibleLedger.Proofs.Ledger.Extensional
import FungibleLedger.Proofs.Host.Extensional
import FungibleLedger.Proofs.Files.Database
import FungibleLedger.Proofs.CommandLine.Endings
import FungibleLedger.Proofs.CommandLine.Session
import FungibleLedger.Proofs.Schema
import FungibleLedger.Proofs.Message
import FungibleLedger.Proofs.Ledger.Postings
import FungibleLedger.Proofs.Ledger.Residue
import FungibleLedger.Proofs.Host.Splitting
import FungibleLedger.Proofs.Message.RoundTrip
import FungibleLedger.Proofs.Observers.Subscriptions
import FungibleLedger.Proofs.Observers.Deliveries
import FungibleLedger.Proofs.Storage.Transactions
import FungibleLedger.Proofs.Host.Holders
import FungibleLedger.Proofs.Base64
import FungibleLedger.Proofs.Address.Keys
import FungibleLedger.Proofs.Wallet
import FungibleLedger.Proofs.Config
import FungibleLedger.Proofs.CommandLine.Corruption
import FungibleLedger.Proofs.Storage.Pending
import FungibleLedger.Proofs.CommandLine.Wallets
import FungibleLedger.Proofs.CommandLine.Genesis
import FungibleLedger.Proofs.Ledger.Orders
