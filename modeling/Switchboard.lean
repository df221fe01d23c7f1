import Switchboard.Client.Basic
import Switchboard.Main
import Switchboard.Proofs.Service.Wiring
import Switchboard.Proofs.Service.Dispatch
import Switchboard.Proofs.Service.Stages
import Switchboard.Proofs.Json.Reads
import Switchboard.Proofs.Json.Grammar
import Switchboard.Proofs.Json.Text
import Switchboard.Proofs.Json.Numeral
import Switchboard.Proofs.Json.Structure
import Switchboard.Proofs.Json.Codec
import Switchboard.Proofs.Service.Transparency
import Switchboard.Proofs.Todos.History
import Switchboard.Proofs.Host.Answer
import Switchboard.Proofs.Todos.Service
import Switchboard.Proofs.Host.Atomicity
import Switchboard.Proofs.Host.Lifecycle
import Switchboard.Proofs.Host.Routing
import Switchboard.Proofs.Host.Session
import Switchboard.Proofs.Host.InFlight
import Switchboard.Proofs.Host.Draining
import Switchboard.Proofs.Http.Form
import Switchboard.Proofs.Http.Url
import Switchboard.Proofs.Client.Agreement
import Switchboard.Proofs.Service.Process
import Switchboard.Proofs.Service.Accounting
import Switchboard.Proofs.Text.Order
import Switchboard.Proofs.Service.Registrations
import Switchboard.Proofs.Service.CallIds
import Switchboard.Proofs.Host.Site
import Switchboard.Proofs.Host.Panics
import Switchboard.Proofs.Host.Mounting
import Switchboard.Proofs.Json.Derivations
import Switchboard.Proofs.Json.Written
import Switchboard.Proofs.Json.Extension
import Switchboard.Proofs.Json.Skip
import Switchboard.Proofs.Json.Filling
import Switchboard.Proofs.Json.ObjectText
import Switchboard.Proofs.Json.Closing
import Switchboard.Proofs.Json.Envelope
import Switchboard.Proofs.Todos.Conventions
import Switchboard.Proofs.Client.Refusals
import Switchboard.Proofs.Client.Selection
import Switchboard.Proofs.Json.Positional
import Switchboard.Proofs.Service.Payloads
import Switchboard.Proofs.Service.Objects
import Switchboard.Proofs.Service.Truncation
import Switchboard.Proofs.Service.Selection
import Switchboard.Proofs.Todos.Orders
import Switchboard.Proofs.Service.Bodies
import Switchboard.Proofs.Service.Confinement
import Switchboard.Proofs.Host.RequestIds
import Switchboard.Proofs.Host.MountOutcomes
import Switchboard.Proofs.Text.Lossy
import Switchboard.Proofs.Http.Query
import Switchboard.Proofs.Host.Headers
import Switchboard.Proofs.Host.Origins
import Switchboard.Proofs.Service.Numbering
import Switchboard.Proofs.Host.Numbering
import Switchboard.Proofs.Host.Stopping
