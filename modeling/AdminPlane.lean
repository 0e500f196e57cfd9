import AdminPlane.Main
import AdminPlane.Proofs.Channel.KeyText
import AdminPlane.Proofs.Channel.Tampering
import AdminPlane.Proofs.Client.Answers
import AdminPlane.Proofs.Ledger.Batch
import AdminPlane.Proofs.Ledger.Delivery
import AdminPlane.Proofs.Ledger.Interleaving
import AdminPlane.Proofs.Ledger.Listing
import AdminPlane.Proofs.Ledger.Pages
import AdminPlane.Proofs.Node.Concealment
import AdminPlane.Proofs.Node.Confinement
import AdminPlane.Proofs.Node.Initialisation
import AdminPlane.Proofs.Node.Protocol
import AdminPlane.Proofs.Node.Remote
import AdminPlane.Proofs.Node.Replay
import AdminPlane.Proofs.Node.Secrecy
import AdminPlane.Proofs.Payload.Additive
import AdminPlane.Proofs.Server.Accounting
import AdminPlane.Proofs.Server.Authentication
import AdminPlane.Proofs.Server.Blame
import AdminPlane.Proofs.Server.Starts
import AdminPlane.Proofs.Settings.KeyVariable
import AdminPlane.Proofs.Settings.Precedence
