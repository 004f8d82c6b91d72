import SoleRunner.Host
import SoleRunner.Lock
import SoleRunner.Main
import SoleRunner.Scheduler.Script
import SoleRunner.WakeSlot
import SoleRunner.Proofs.Soundness
import SoleRunner.Proofs.Steps
import SoleRunner.Proofs.Outcome.Arrival
import SoleRunner.Proofs.Outcome.Departure
import SoleRunner.Proofs.Outcome.Lifecycle
import SoleRunner.Proofs.Outcome.Switch
import SoleRunner.Proofs.Outcome.Requests
import SoleRunner.Proofs.AnyRun
import SoleRunner.Proofs.Crew
import SoleRunner.Proofs.Frame
import SoleRunner.Proofs.HandOff
import SoleRunner.Proofs.SingleRunner
import SoleRunner.Proofs.Listing
import SoleRunner.Proofs.Stranded
import SoleRunner.Proofs.Debt
import SoleRunner.Proofs.Custody
import SoleRunner.Proofs.Undisturbed
import SoleRunner.Proofs.Away
import SoleRunner.Proofs.Plans
import SoleRunner.Proofs.Placements
import SoleRunner.Proofs.FairRotation
import SoleRunner.Proofs.Hooks
import SoleRunner.Proofs.Queue
import SoleRunner.Proofs.Simulation.Beats
import SoleRunner.Proofs.Simulation.Recorded
import SoleRunner.Proofs.Simulation.Turns
import SoleRunner.Proofs.Simulation.Staged
import SoleRunner.Proofs.Simulation.Boot
import SoleRunner.Proofs.Simulation.Carried
import SoleRunner.Proofs.Simulation.ExactlyOnce
import SoleRunner.Proofs.Simulation.Standing
import SoleRunner.Proofs.Simulation.Rotating
import SoleRunner.Proofs.Simulation.TakingTurns
import SoleRunner.Proofs.Simulation.TurnBudget
import SoleRunner.Proofs.Simulation.TurnBound
import SoleRunner.Proofs.Delivery
import SoleRunner.Proofs.Shipment
import SoleRunner.Proofs.Race
import SoleRunner.Proofs.Carrier
import SoleRunner.Proofs.Resumption
import SoleRunner.Proofs.Vacancy
import SoleRunner.Proofs.LoneRunner
import SoleRunner.Proofs.Callbacks
import SoleRunner.Proofs.Choosing
import SoleRunner.Proofs.Refusals
import SoleRunner.Proofs.FailedArrival
import SoleRunner.Proofs.StateChanges
import SoleRunner.Proofs.Counters
import SoleRunner.Proofs.Reinstallation
import SoleRunner.Proofs.Alike
import SoleRunner.Proofs.Answers
import SoleRunner.Proofs.Emptied
import SoleRunner.Proofs.Switching
import SoleRunner.Proofs.Departing
import SoleRunner.Proofs.Arriving
import SoleRunner.Proofs.Benched
import SoleRunner.Proofs.Simulation.Arbitrations
import SoleRunner.Proofs.Auditing
import SoleRunner.Proofs.WakePermits
import SoleRunner.Proofs.Spelling
import SoleRunner.Proofs.Logging
