import StateSearch.Visited.LookBack
import StateSearch.Ledger
import StateSearch.ListTable
import StateSearch.Proofs.Coherent
import StateSearch.Proofs.ListView
import StateSearch.Proofs.Runs
import StateSearch.Proofs.Balance
import StateSearch.Proofs.ChainLists
import StateSearch.Proofs.Placement
import StateSearch.Proofs.Ascending
import StateSearch.Proofs.PlainRuns
import StateSearch.Unrolled
import StateSearch.Proofs.Steps
import StateSearch.Proofs.Unrolling
import StateSearch.Proofs.LastInFirstOut
import StateSearch.Proofs.Finding
import StateSearch.Rekeyed
import StateSearch.Proofs.Growth
import StateSearch.Proofs.Rekeying
import StateSearch.Proofs.Expansions
import StateSearch.Proofs.Paths
import StateSearch.Proofs.Reach
import StateSearch.PlainSearch
import StateSearch.Proofs.VisitOrder
import StateSearch.Proofs.Counters
import StateSearch.Proofs.Termination
import StateSearch.Proofs.Rounds
import StateSearch.Proofs.Schedule
import StateSearch.Proofs.Layout
import StateSearch.Proofs.Reports
import StateSearch.Proofs.Separation
import StateSearch.Proofs.Ids
import StateSearch.Proofs.Doublings
import StateSearch.Proofs.Commuting
import StateSearch.Proofs.FullScan
import StateSearch.Proofs.LogBook
import StateSearch.Proofs.Rejections
import StateSearch.Proofs.Capacity
import StateSearch.Proofs.Attempts
import StateSearch.Proofs.Nesting
