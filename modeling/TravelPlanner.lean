import TravelPlanner.TransitionTiming
import TravelPlanner.TripClients
import TravelPlanner.ConfirmationGate
import TravelPlanner.TurnScope
import TravelPlanner.DbAdapter
import TravelPlanner.MustSee
import TravelPlanner.LiveStream
import TravelPlanner.EventStream
import TravelPlanner.PlaceConvergence
import TravelPlanner.PlaceImports
import TravelPlanner.PlannerRequests
import TravelPlanner.MatrixCoherence
import TravelPlanner.MigrationRuns
import TravelPlanner.SnapshotIdentity
import TravelPlanner.LocalOptimum
import TravelPlanner.EnumerationOrder
import TravelPlanner.OpeningHours
import TravelPlanner.Placement
import TravelPlanner.PackingOrder
import TravelPlanner.PackingBalance
import TravelPlanner.SkipReasons
import TravelPlanner.ClockOrder
import TravelPlanner.StayNights
import TravelPlanner.AddedTransfers
import TravelPlanner.PreferredWindows
import TravelPlanner.Restores
import TravelPlanner.HistoryViews
import TravelPlanner.EditOrder
import TravelPlanner.CacheHits
import TravelPlanner.EnrichmentStatus
import TravelPlanner.ListImports
import TravelPlanner.EarliestStart
import TravelPlanner.CancelledCalls
import TravelPlanner.FormChecks
import TravelPlanner.Reopening
import TravelPlanner.EditLines
import TravelPlanner.PromptLines
import TravelPlanner.LeastSchedules
import TravelPlanner.TripLogs
import TravelPlanner.CallerAuth
import TravelPlanner.PlannerPage
import TravelPlanner.PlannerForm
import TravelPlanner.EnrichmentQueue
import TravelPlanner.PlacePreferences
import TravelPlanner.ToolCalls
import TravelPlanner.UnassignedPlaces
import TravelPlanner.TurnStreams
import TravelPlanner.SchemaLadder
