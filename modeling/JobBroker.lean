import JobBroker.Main
import JobBroker.Session.Admission
import JobBroker.Session.Peer
import JobBroker.Settings.Source
import JobBroker.Proofs.Message.Losses
import JobBroker.Proofs.Packet.RoundTrip
import JobBroker.Proofs.Run.Balance
import JobBroker.Proofs.Run.Delivery
import JobBroker.Proofs.Stream.Results
import JobBroker.Proofs.Run.Refusals
import JobBroker.Proofs.Packet.Grammar
import JobBroker.Proofs.Run.Line
import JobBroker.Proofs.Packet.Elements
import JobBroker.Proofs.Packet.Resync
import JobBroker.Proofs.Packet.Viable
import JobBroker.Proofs.Message.Sources
import JobBroker.Proofs.Message.Unmixed
import JobBroker.Proofs.Session.Outbound
import JobBroker.Proofs.Session.Serving
import JobBroker.Proofs.Session.Arriving
import JobBroker.Proofs.Placement.Level
import JobBroker.Proofs.Placement.Load
import JobBroker.Proofs.Packet.Canonical
import JobBroker.Proofs.Placement.Optimum
import JobBroker.Proofs.Placement.Attempt
import JobBroker.Proofs.Run.Books
import JobBroker.Proofs.Message.AnyOrder
import JobBroker.Proofs.Queue.Order
import JobBroker.Proofs.Worker.History
import JobBroker.Proofs.Message.Missing
import JobBroker.Proofs.Control.Submission
import JobBroker.Proofs.Message.Filling
import JobBroker.Proofs.Packet.Intact
