import SearchGateway.Backend.Answer
import SearchGateway.Backend.Call
import SearchGateway.Backend.Client
import SearchGateway.Backend.Response
import SearchGateway.Backend.Scripted
import SearchGateway.CommandLine.Arguments
import SearchGateway.CommandLine.Error
import SearchGateway.CommandLine.Run
import SearchGateway.Config.Load
import SearchGateway.Config.Settings
import SearchGateway.Config.SocketAddress
import SearchGateway.Gateway.Body
import SearchGateway.Gateway.Cors
import SearchGateway.Gateway.Endpoint
import SearchGateway.Gateway.Error
import SearchGateway.Gateway.Plan
import SearchGateway.Gateway.Route
import SearchGateway.Gateway.Server
import SearchGateway.Gateway.Timestamp
import SearchGateway.Http.Header
import SearchGateway.Http.MediaType
import SearchGateway.Http.Message
import SearchGateway.Http.Status
import SearchGateway.Http.Target
import SearchGateway.Http.Url
import SearchGateway.Json.Double
import SearchGateway.Json.Fault
import SearchGateway.Json.Lexeme
import SearchGateway.Json.Reader
import SearchGateway.Json.Skip
import SearchGateway.Json.Typed
import SearchGateway.Json.Value
import SearchGateway.Main
import SearchGateway.Query.Clause
import SearchGateway.Query.Collection
import SearchGateway.Query.Cost
import SearchGateway.Query.Error
import SearchGateway.Query.Limits
import SearchGateway.Query.Operator
import SearchGateway.Query.Pagination
import SearchGateway.Query.Predicate
import SearchGateway.Query.Request
import SearchGateway.Query.Search
import SearchGateway.Query.Selection
import SearchGateway.Text.CharClass
import SearchGateway.Text.DigitTable
import SearchGateway.Text.HiddenTable
import SearchGateway.Text.Percent
import SearchGateway.Text.Quoted
import SearchGateway.Text.Scan
import SearchGateway.Text.Trim
import SearchGateway.Text.Utf8
import SearchGateway.Text.WordTable
import SearchGateway.Proofs.Utf8
import SearchGateway.Proofs.Lexeme
import SearchGateway.Proofs.Reading
import SearchGateway.Proofs.Members
import SearchGateway.Proofs.RequestText
import SearchGateway.Proofs.Bounds
import SearchGateway.Proofs.Resubmission
import SearchGateway.Proofs.ResponseText
import SearchGateway.Proofs.IntegralText
import SearchGateway.Proofs.ListBodies
import SearchGateway.Proofs.Scanning
import SearchGateway.Proofs.Calls
import SearchGateway.Proofs.Session
import SearchGateway.Proofs.ClauseTokens
import SearchGateway.Proofs.CanonicalQuery
import SearchGateway.Proofs.CanonicalClause
import SearchGateway.Proofs.CanonicalScan
import SearchGateway.Proofs.CanonicalRecovery
import SearchGateway.Proofs.Translation
import SearchGateway.Proofs.Words
import SearchGateway.Proofs.NamedCollection
import SearchGateway.Proofs.Verdict
import SearchGateway.Proofs.FrontEnds
import SearchGateway.Proofs.TokenKinds
import SearchGateway.Proofs.Occurrences
import SearchGateway.Proofs.QuotedValues
import SearchGateway.Proofs.Answers
import SearchGateway.Proofs.TextAnswers
import SearchGateway.Proofs.Percent
import SearchGateway.Proofs.Addresses
import SearchGateway.Proofs.ObjectAddresses
import SearchGateway.Proofs.ClientRequests
import SearchGateway.Proofs.Decimals
import SearchGateway.Proofs.CostPoints
import SearchGateway.Proofs.SelectedItems
import SearchGateway.Proofs.TextRequests
import SearchGateway.Proofs.RawPredicates
import SearchGateway.Proofs.FilterClause
import SearchGateway.Proofs.Directives
import SearchGateway.Proofs.JsonText
import SearchGateway.Proofs.Skipping
import SearchGateway.Proofs.SettledReaders
import SearchGateway.Proofs.RecordText
import SearchGateway.Proofs.RecordEdits
import SearchGateway.Proofs.BodyEdits
import SearchGateway.Proofs.IntegerText
import SearchGateway.Proofs.PageSizes
import SearchGateway.Proofs.AllowedOrigins
import SearchGateway.Proofs.Deliveries
import SearchGateway.Proofs.ValueText
import SearchGateway.Proofs.CommandReports
import SearchGateway.Proofs.StringText
import SearchGateway.Proofs.AcceptedText
import SearchGateway.Proofs.RecordParts
import SearchGateway.Proofs.SettingsFile
import SearchGateway.Proofs.SettingsSources
