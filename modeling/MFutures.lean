import MFutures.Lib.Handler
import MFutures.Lib.EventSystem
import MFutures.Lib.Relational
import MFutures.Lib.Components
import MFutures.Lib.Decided
import MFutures.Lib.CString
import MFutures.Lib.CopyOnWriteArraySet
import MFutures.Lib.WhileLoop
import MFutures.Lib.Rounding
import MFutures.Lib.Guarantee
import MFutures.Lib.Protocol
import MFutures.Value
import MFutures.Records
import MFutures.Host
import MFutures.TraderSpi
import MFutures.MdSpi
import MFutures.Session
import MFutures.Bridge
import MFutures.Frames
import MFutures.Reconnect
import MFutures.Nesting
import MFutures.Callbacks
import MFutures.SessionInvariant
import MFutures.Delivery
import MFutures.Outgoing
import MFutures.TraderSteps
import MFutures.ErrorReporting
import MFutures.LoginStatus
import MFutures.OrderKey
import MFutures.Answers
import MFutures.Requests
import MFutures.Conversion
import MFutures.MissingSession
import MFutures.LoginAtomicity
import MFutures.Totality
import MFutures.Survival
import MFutures.SendFailure
import MFutures.OrderInsert
import MFutures.Relogin
import MFutures.ApiProtocol
import MFutures.ApiLifecycle
import MFutures.Correlation
import MFutures.Agreement
import MFutures.Interleaving
import MFutures.Veil
import MFutures.Secrecy
import MFutures.EchoClient
import MFutures.Endpoint
import MFutures.FanOut
import MFutures.Json.Text
import MFutures.Json.Strings
import MFutures.Json.Number
import MFutures.Json.Numeral
import MFutures.Json.Doubles
import MFutures.Json.Reader
import MFutures.Json.Tokens
import MFutures.Json.Writer
import MFutures.Json.StyledWriter
import MFutures.Json.Grammar
import MFutures.Json.RoundTrip
import MFutures.Json.Layout
import MFutures.Json.Accepted
import MFutures.Json.Access
import MFutures.Json.Canonical
import MFutures.Wire
