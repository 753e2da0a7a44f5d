import Parley.Address
import Parley.Certificate.Reader
import Parley.Certificate.Strict
import Parley.Certificate.Views
import Parley.Client
import Parley.Config
import Parley.Connection.Registry
import Parley.Crypto.Curve
import Parley.Crypto.Sha2
import Parley.Disk.Directory
import Parley.Echo
import Parley.Envelope
import Parley.Hostname
import Parley.Logging
import Parley.Main
import Parley.Proofs.Certificate.Views
import Parley.Proofs.Client.Closing
import Parley.Proofs.Client.Settling
import Parley.Proofs.Config.Loading
import Parley.Proofs.Connection.Queue
import Parley.Proofs.Connection.Receiving
import Parley.Proofs.Connection.Sending
import Parley.Proofs.Connection.Service
import Parley.Proofs.Conversation.Replies
import Parley.Proofs.Draining
import Parley.Proofs.Envelope.Origin
import Parley.Proofs.Hostname
import Parley.Proofs.Listening
import Parley.Proofs.Race.Removal
import Parley.Proofs.Stopping
import Parley.Proofs.Target.Port
import Parley.Proofs.Target.Printing
import Parley.Proofs.Tls.Context
import Parley.Proofs.Token.Conservation
import Parley.Proofs.Token.Contract
import Parley.Proofs.Trust.Locating
import Parley.Proofs.Trust.Naming
import Parley.Proofs.Trust.Pinning
import Parley.Proofs.Trust.Verdicts
import Parley.Pump
import Parley.Server
import Parley.Simulation.Handler
import Parley.Simulation.Schedule
import Parley.Simulation.Script
import Parley.Simulation.Solo
import Parley.Target
import Parley.Text.Base64
import Parley.Text.Quoted
import Parley.Tls.Context
import Parley.Tls.Elliptic
import Parley.Tls.ServerName
import Parley.Tls.Signature
import Parley.Token.Store
import Parley.Trust.Decision
import Parley.Trust.Path
import Parley.WebSocket.Arrival
import Parley.WebSocket.Endpoint
import Parley.WebSocket.Upgrade
import Parley.Yaml.Node
