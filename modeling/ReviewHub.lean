import ReviewHub.Proofs.Dispatch.Reports
import ReviewHub.Proofs.Event.Direct
import ReviewHub.Proofs.Event.Number
import ReviewHub.Proofs.Event.Positional
import ReviewHub.Proofs.Hub.Building
import ReviewHub.Proofs.Hub.Echo
import ReviewHub.Proofs.Hub.Fates
import ReviewHub.Proofs.Hub.Routes
import ReviewHub.Proofs.Hub.SecondShutdown
import ReviewHub.Proofs.Hub.Standstill
import ReviewHub.Proofs.Hub.Survival
import ReviewHub.Proofs.Json.Reading
import ReviewHub.Proofs.Session.Abandoned
import ReviewHub.Proofs.Session.Length
import ReviewHub.Proofs.Stream.Arrangement
import ReviewHub.Proofs.Stream.Direct
import ReviewHub.Proofs.Stream.Faithful
import ReviewHub.Proofs.Wire.Canonical
