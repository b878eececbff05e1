import MangoProtocol.Agreement
import MangoProtocol.Codec.UnreadableHello
import MangoProtocol.Contract.Serve
import MangoProtocol.Session.Answers
import MangoProtocol.Session.Bookkeeping
import MangoProtocol.Session.HelloLimits
import MangoProtocol.Session.Liveness
import MangoProtocol.Session.Panics
import MangoProtocol.Session.RequesterRuns
import MangoProtocol.Session.Sequencing
import MangoProtocol.Transports.Farewells
import MangoProtocol.Transports.Ipc
import MangoProtocol.Transports.Receive
import MangoProtocol.Transports.SocketLedger
import MangoProtocol.Transports.Spawn
import MangoProtocol.Transports.Stall
import MangoProtocol.Transports.Termination
import MangoProtocol.Transports.WithoutCloseFrame
import MangoProtocol.TypeScript.Answers
import MangoProtocol.TypeScript.Handlers
import MangoProtocol.TypeScript.HeldClosure
import MangoProtocol.TypeScript.InProcessOrder
import MangoProtocol.TypeScript.Launcher
import MangoProtocol.TypeScript.NdjsonFarewell
import MangoProtocol.TypeScript.RequesterRuns
import MangoProtocol.TypeScript.SchemaDifferences
import MangoProtocol.TypeScript.SchemaForms
import MangoProtocol.TypeScript.SchemaInlining
import MangoProtocol.TypeScript.Ssh
import MangoProtocol.TypeScript.ThrowingListener
import MangoProtocol.TypeScript.WebSocketFarewell
import MangoProtocol.TypeScript.WebSocketStall
