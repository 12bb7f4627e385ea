import Monopoly.Engine.Apply
import Monopoly.Engine.Setup
import Monopoly.Game.Animation
import Monopoly.Laws.AbandonedGame
import Monopoly.Laws.Absorption
import Monopoly.Laws.AdvertisedActions
import Monopoly.Laws.AfkStrikes
import Monopoly.Laws.AuctionRun
import Monopoly.Laws.BankBook
import Monopoly.Laws.BankLending
import Monopoly.Laws.BankruptcyTransfer
import Monopoly.Laws.BroadcastOrder
import Monopoly.Laws.BuildingStock
import Monopoly.Laws.CardConservation
import Monopoly.Laws.CardGate
import Monopoly.Laws.CashLedger
import Monopoly.Laws.ColorGroups
import Monopoly.Laws.DebtCoherence
import Monopoly.Laws.DeckSecrecy
import Monopoly.Laws.FairRotation
import Monopoly.Laws.Finished
import Monopoly.Laws.HostHandOff
import Monopoly.Laws.IdleTimers
import Monopoly.Laws.Jail
import Monopoly.Laws.JailedTurns
import Monopoly.Laws.LandingDepth
import Monopoly.Laws.LobbyPaging
import Monopoly.Laws.LostUpdate
import Monopoly.Laws.NetWorth
import Monopoly.Laws.NodeListeners
import Monopoly.Laws.OneAnswer
import Monopoly.Laws.OnePlay
import Monopoly.Laws.Overlays
import Monopoly.Laws.OwnMoves
import Monopoly.Laws.Ownership
import Monopoly.Laws.Placements
import Monopoly.Laws.RatedOnce
import Monopoly.Laws.RatingBounds
import Monopoly.Laws.RefreshTokens
import Monopoly.Laws.RefusedTrade
import Monopoly.Laws.RentTable
import Monopoly.Laws.RollDiscipline
import Monopoly.Laws.RoomCapacity
import Monopoly.Laws.RoomHost
import Monopoly.Laws.RoomMembers
import Monopoly.Laws.RoomStart
import Monopoly.Laws.RoomToGame
import Monopoly.Laws.SentToJail
import Monopoly.Laws.SessionLock
import Monopoly.Laws.Snapshot
import Monopoly.Laws.Solvency
import Monopoly.Laws.StartedRoom
import Monopoly.Laws.SurrenderContract
import Monopoly.Laws.TakenBack
import Monopoly.Laws.TimelinePath
import Monopoly.Laws.Totality
import Monopoly.Laws.TradeConsent
import Monopoly.Laws.TradeExchange
import Monopoly.Laws.TradeTerms
import Monopoly.Laws.TurnPassing
import Monopoly.Laws.TurnRecord
import Monopoly.Laws.WinCondition
import Monopoly.Lib.Books
import Monopoly.Lib.Calls
import Monopoly.Lib.Checked
import Monopoly.Lib.Coroutine
import Monopoly.Lib.Dict
import Monopoly.Lib.Keyed
import Monopoly.Lib.Paging
import Monopoly.Lib.Path
import Monopoly.Lib.Ranking
import Monopoly.Lib.Related
import Monopoly.Lib.Rotation
import Monopoly.Lib.Rounding
import Monopoly.Lib.Runs
import Monopoly.Lib.Stamps
import Monopoly.Lib.VersionChain
import Monopoly.Service.Credentials
import Monopoly.Service.Effects
import Monopoly.Service.Fanout
import Monopoly.Service.Finish
import Monopoly.Service.Flows
import Monopoly.Service.Gateway
import Monopoly.Service.Greeting
import Monopoly.Service.Launch
import Monopoly.Service.Listing
import Monopoly.Service.Lobby
import Monopoly.Service.Opening
import Monopoly.Service.Promises
import Monopoly.Service.Rating
import Monopoly.Service.Rooms
import Monopoly.Service.Schedule
import Monopoly.Service.Session
import Monopoly.Service.Telling
import Monopoly.Service.World
import Monopoly.Spec.Acceptance
import Monopoly.Spec.Accounts
import Monopoly.Spec.Bookings
import Monopoly.Spec.Building
import Monopoly.Spec.Deals
import Monopoly.Spec.Elimination
import Monopoly.Spec.Estates
import Monopoly.Spec.Holdings
import Monopoly.Spec.Ledger
import Monopoly.Spec.Passing
import Monopoly.Spec.Phases
import Monopoly.Spec.Play
import Monopoly.Spec.Queries
import Monopoly.Spec.Redisplay
import Monopoly.Spec.Roll
import Monopoly.Spec.Roster
import Monopoly.Spec.Rounds
import Monopoly.Spec.Secrecy
import Monopoly.Spec.Stock
import Monopoly.Spec.Streets
import Monopoly.Spec.Trail
