import TradingFleet.Basic.Text
import TradingFleet.Basic.Keyed
import TradingFleet.Basic.Greedy
import TradingFleet.Basic.Runs
import TradingFleet.Basic.Steps
import TradingFleet.Basic.Sorting
import TradingFleet.Basic.Bisect
import TradingFleet.Outbox.Record
import TradingFleet.Outbox.Operations
import TradingFleet.Outbox.Effects
import TradingFleet.Outbox.Retention
import TradingFleet.Outbox.Standing
import TradingFleet.Outbox.Quantity
import TradingFleet.Outbox.Consolidation
import TradingFleet.Outbox.Deferral
import TradingFleet.Basic.Hoare
import TradingFleet.Outbox.Shared
import TradingFleet.Outbox.Worker
import TradingFleet.Outbox.Submits
import TradingFleet.Outbox.Dispatch
import TradingFleet.Lock.Cooldown
import TradingFleet.Lock.Spacing
import TradingFleet.Pair.Coordinator
import TradingFleet.Pair.Step
import TradingFleet.Pair.Checkpoint
import TradingFleet.Pair.Rules
import TradingFleet.Pair.Moves
import TradingFleet.Pair.Exits
import TradingFleet.Pair.Answers
import TradingFleet.Pair.Terminal
import TradingFleet.Pair.Recovery
import TradingFleet.Pair.Ledger
import TradingFleet.Pair.Accounts
import TradingFleet.Pair.Alike
import TradingFleet.Pair.Clocks
import TradingFleet.Pair.Restart
import TradingFleet.Pair.Revisions
import TradingFleet.Pair.Edges
import TradingFleet.Pair.Managed
import TradingFleet.Pair.Scheduler
import TradingFleet.Lifecycle.Tracked
import TradingFleet.Lifecycle.Rules
import TradingFleet.Lifecycle.Crash
import TradingFleet.Lifecycle.OrderIds
import TradingFleet.Lifecycle.Absence
import TradingFleet.SpotDca.Types
import TradingFleet.SpotDca.Ledger
import TradingFleet.SpotDca.Engine
import TradingFleet.SpotDca.Step
import TradingFleet.SpotDca.Moves
import TradingFleet.SpotDca.Walks
import TradingFleet.SpotDca.Fills
import TradingFleet.SpotDca.Exits
import TradingFleet.SpotDca.Stranded
import TradingFleet.SpotDca.Budget
import TradingFleet.SpotDca.Balance
import TradingFleet.SpotDca.Identity
import TradingFleet.SpotDca.Tranches
import TradingFleet.SpotDca.Offers
import TradingFleet.SpotDca.TakeProfit
import TradingFleet.SpotDca.Dust
import TradingFleet.Trading212.Step
import TradingFleet.Trading212.Ladder
import TradingFleet.Trading212.Moves
import TradingFleet.Trading212.Walks
import TradingFleet.Trading212.Ticks
import TradingFleet.Trading212.Tracking
import TradingFleet.Trading212.Shares
import TradingFleet.Trading212.Marks
import TradingFleet.Trading212.Rearming
import TradingFleet.Trading212.Oversell
import TradingFleet.Trading212.Placements
import TradingFleet.Trading212.OneShot
import TradingFleet.Trading212.Resubmits
import TradingFleet.Trailing.Step
import TradingFleet.Trailing.Fills
import TradingFleet.Trailing.Ticks
import TradingFleet.Trailing.Types
import TradingFleet.Trailing.Rebuy
import TradingFleet.Trailing.Peaks
import TradingFleet.Orders.Filters
import TradingFleet.Orders.AverageCost
import TradingFleet.Orders.Pricing
import TradingFleet.Regime.Types
import TradingFleet.Regime.Compose
import TradingFleet.Regime.Contextual
import TradingFleet.Regime.Evidence
import TradingFleet.Regime.Resolution
import TradingFleet.Regime.Duplicates
import TradingFleet.Orders.WeightLimit
import TradingFleet.Orders.Repricing
import TradingFleet.Orders.Pagination
import TradingFleet.Hyperliquid.Types
import TradingFleet.Hyperliquid.Tick
import TradingFleet.Hyperliquid.Effects
import TradingFleet.Hyperliquid.Leftover
import TradingFleet.Hyperliquid.Hedge
import TradingFleet.Hyperliquid.Confirmations
import TradingFleet.Permits.Health
import TradingFleet.Permits.Submit
import TradingFleet.Permits.Freshness
import TradingFleet.Permits.Window
import TradingFleet.Monitor.Types
import TradingFleet.Monitor.Evaluation
import TradingFleet.Prices.Window
import TradingFleet.Prices.Extremes
import TradingFleet.Replay.Metrics
import TradingFleet.Replay.Execution
import TradingFleet.Replay.Tranches
import TradingFleet.Replay.Tick
import TradingFleet.Replay.Run
import TradingFleet.Replay.Ticks
import TradingFleet.Replay.Books
import TradingFleet.Basic.Funding
import TradingFleet.Basic.Json
import TradingFleet.Basic.Numeral
import TradingFleet.Basic.Journal
import TradingFleet.Basic.Buckets
import TradingFleet.Cache.Rows
import TradingFleet.Cache.Manifest
import TradingFleet.Cache.World
import TradingFleet.Cache.Store
import TradingFleet.Cache.Certified
import TradingFleet.Cache.Loads
import TradingFleet.Cache.Commits
import TradingFleet.Cache.Writes
import TradingFleet.Cache.Reload
import TradingFleet.Cache.Recovery
import TradingFleet.Cache.Saves
import TradingFleet.Cache.Upkeep
import TradingFleet.Cache.Fleet
import TradingFleet.Cache.Turns
import TradingFleet.Cache.Durable
import TradingFleet.Placement.World
import TradingFleet.Placement.Place
import TradingFleet.Placement.Stages
import TradingFleet.Placement.Sends
import TradingFleet.Placement.Reports
import TradingFleet.Placement.Remembers
import TradingFleet.Lifecycle.Tracks
import TradingFleet.Rtrade.Store
import TradingFleet.Rtrade.Validate
import TradingFleet.Rtrade.Venue
import TradingFleet.Rtrade.Slots
import TradingFleet.Rtrade.Programs
import TradingFleet.Rtrade.Recoveries
import TradingFleet.Rtrade.Placements
import TradingFleet.Rtrade.Adoptions
import TradingFleet.Rtrade.Runs
