import TopicLoad.Command.Arguments
import TopicLoad.Command.Campaign
import TopicLoad.Command.Dotenv
import TopicLoad.Command.Verdict
import TopicLoad.Decimal.Notation
import TopicLoad.Decimal.Reading
import TopicLoad.Decimal.Shortest
import TopicLoad.Duration
import TopicLoad.Engine.Context
import TopicLoad.Engine.Fault
import TopicLoad.Engine.Run
import TopicLoad.Engine.Schedule
import TopicLoad.Engine.Settings
import TopicLoad.Engine.Task
import TopicLoad.Json.Basic
import TopicLoad.Json.Decoding
import TopicLoad.Json.Fault
import TopicLoad.Json.Reading
import TopicLoad.Json.Text
import TopicLoad.Json.Typed
import TopicLoad.Keyed
import TopicLoad.Limits
import TopicLoad.Log.Basic
import TopicLoad.Log.Filter
import TopicLoad.Main
import TopicLoad.Metrics.Collector
import TopicLoad.Metrics.Summary
import TopicLoad.Mismatch
import TopicLoad.Proofs.History
import TopicLoad.Publish.Client
import TopicLoad.Publish.Endpoint
import TopicLoad.Publish.Reply
import TopicLoad.Publish.Request
import TopicLoad.Publish.Status
import TopicLoad.Publish.Wire
import TopicLoad.Script.Basic
import TopicLoad.Script.Loading
import TopicLoad.Script.Shape
import TopicLoad.Script.Writing
import TopicLoad.Seed
import TopicLoad.Source
import TopicLoad.Step.Basic
import TopicLoad.Step.Reading
import TopicLoad.Step.Writing
import TopicLoad.Template.Builtin
import TopicLoad.Template.Fault
import TopicLoad.Template.Line
import TopicLoad.Template.Rendering
import TopicLoad.Text.Base64
import TopicLoad.Text.Blank
import TopicLoad.Text.Digits
import TopicLoad.Text.Quoted
import TopicLoad.Text.Ranges
import TopicLoad.Text.Uuid
import TopicLoad.Text.Word
import TopicLoad.Think
import TopicLoad.Url.Basic
import TopicLoad.Url.Host
import TopicLoad.Url.Percent
import TopicLoad.VirtualUser
import TopicLoad.Yaml.Cursor
import TopicLoad.Yaml.General
import TopicLoad.Yaml.Meaning
import TopicLoad.Yaml.Node
import TopicLoad.Yaml.Token
import TopicLoad.Yaml.Typed
import TopicLoad.Yaml.Written
import TopicLoad.Proofs.Behaviour
import TopicLoad.Proofs.Looping
import TopicLoad.Proofs.Serving
import TopicLoad.Proofs.Unrolling
import TopicLoad.Proofs.Fanout
import TopicLoad.Proofs.Course
import TopicLoad.Proofs.Ledger
import TopicLoad.Proofs.Fleet
import TopicLoad.Proofs.Endless
import TopicLoad.Proofs.Rereading
import TopicLoad.Proofs.Halting
import TopicLoad.Proofs.Company
import TopicLoad.Proofs.Solitude
import TopicLoad.Proofs.Workload
import TopicLoad.Proofs.Placeholders
import TopicLoad.Proofs.Interpolation
import TopicLoad.Proofs.Magnitude
import TopicLoad.Proofs.Grammar
import TopicLoad.Proofs.Refusals
import TopicLoad.Proofs.Rehearsal
import TopicLoad.Proofs.DryRun
import TopicLoad.Proofs.Preparation
import TopicLoad.Proofs.Holding
import TopicLoad.Proofs.Pruning
import TopicLoad.Proofs.Stage
import TopicLoad.Proofs.Accounting
import TopicLoad.Proofs.Bindings
import TopicLoad.Proofs.ByteOrder
import TopicLoad.Proofs.Templates
import TopicLoad.Proofs.Addresses
import TopicLoad.Proofs.Mentions
import TopicLoad.Proofs.Immaterial
import TopicLoad.Proofs.Percentiles
import TopicLoad.Proofs.Reporting
import TopicLoad.Proofs.Alone
import TopicLoad.Proofs.Overlap
import TopicLoad.Proofs.Elapsed
import TopicLoad.Proofs.Compilation
import TopicLoad.Proofs.JsonText
import TopicLoad.Proofs.Delivery
import TopicLoad.Proofs.Seconds
import TopicLoad.Proofs.ExactValues
import TopicLoad.Proofs.Spread
import TopicLoad.Proofs.UrlEndings
import TopicLoad.Proofs.Destinations
