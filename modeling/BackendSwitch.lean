import BackendSwitch.Main
import BackendSwitch.Proofs.Arguments
import BackendSwitch.Proofs.Loading
import BackendSwitch.Proofs.Pipeline
import BackendSwitch.Proofs.Positions
import BackendSwitch.Proofs.Relayout
import BackendSwitch.Proofs.Remarks
import BackendSwitch.Proofs.Session
import BackendSwitch.Proofs.Verbatim.Document
