import IotSaas.Api.Accepted
import IotSaas.Api.Bodies
import IotSaas.Api.ChangeLines
import IotSaas.Api.Closure
import IotSaas.Api.RetryDelivery
import IotSaas.Api.Schemas
import IotSaas.Api.Service
import IotSaas.Api.StoredEvaluation
import IotSaas.Api.StoredTree
import IotSaas.Api.Updates
import IotSaas.Api.Versions
import IotSaas.Auth.ApiKeys
import IotSaas.Auth.Effects
import IotSaas.Auth.Families
import IotSaas.Auth.Locks
import IotSaas.Auth.PasswordReset
import IotSaas.Auth.ResetLocks
import IotSaas.Auth.Revocation
import IotSaas.Auth.Sessions
import IotSaas.Catalog.KeyFormats
import IotSaas.Catalog.Templates
import IotSaas.Charts.BoolSeries
import IotSaas.Charts.Decimate
import IotSaas.Charts.Delivered
import IotSaas.Charts.LiveBuffer
import IotSaas.Charts.Newest
import IotSaas.Charts.Rounds
import IotSaas.Charts.Subscribers
import IotSaas.Charts.TrendChart
import IotSaas.Charts.Watch
import IotSaas.Charts.Window
import IotSaas.Client.Browser
import IotSaas.Client.Logout
import IotSaas.Client.Refresh
import IotSaas.Client.Storage
import IotSaas.Commands.Acks
import IotSaas.Commands.DesiredState
import IotSaas.Commands.Timeline
import IotSaas.Editor.Accepts
import IotSaas.Editor.ConditionTrip
import IotSaas.Editor.Draft
import IotSaas.Editor.Ladder
import IotSaas.Editor.Preview
import IotSaas.Editor.PreviewSent
import IotSaas.Editor.Returned
import IotSaas.Editor.RoundTrip
import IotSaas.Editor.Save
import IotSaas.Editor.Text
import IotSaas.Editor.TreeEdits
import IotSaas.Firmware.Agreement
import IotSaas.Firmware.Alike
import IotSaas.Firmware.DigitalIn
import IotSaas.Firmware.Drivers
import IotSaas.Firmware.Granted
import IotSaas.Firmware.InStep
import IotSaas.Firmware.Io
import IotSaas.Firmware.Loaded
import IotSaas.Firmware.Net
import IotSaas.Firmware.Pins
import IotSaas.Firmware.Publish
import IotSaas.Firmware.Settings
import IotSaas.Firmware.Sketch
import IotSaas.Firmware.SketchKeys
import IotSaas.Firmware.SketchNames
import IotSaas.Firmware.SketchPins
import IotSaas.Firmware.SketchText
import IotSaas.Firmware.Start
import IotSaas.Firmware.WellFormed
import IotSaas.Health.Cadence
import IotSaas.Health.Spacing
import IotSaas.Health.Staleness
import IotSaas.Ingestion.Service
import IotSaas.Ingestion.TopicIsolation
import IotSaas.Lib.Attempt
import IotSaas.Lib.Base64
import IotSaas.Lib.Bisect
import IotSaas.Lib.CSource
import IotSaas.Lib.Double
import IotSaas.Lib.Fresh
import IotSaas.Lib.Ieee
import IotSaas.Lib.JsCollections
import IotSaas.Lib.JsonEq
import IotSaas.Lib.JsonText
import IotSaas.Lib.Logs
import IotSaas.Lib.Numeral
import IotSaas.Lib.Outstanding
import IotSaas.Lib.Paging
import IotSaas.Lib.Record
import IotSaas.Lib.Register
import IotSaas.Lib.Report
import IotSaas.Lib.Text
import IotSaas.Lib.Trace
import IotSaas.Lib.Tx
import IotSaas.Notifications.Feed
import IotSaas.Notifications.Groups
import IotSaas.Provisioning.ConfigBlob
import IotSaas.Provisioning.Flasher
import IotSaas.Provisioning.Srp6a
import IotSaas.Realtime.Connect
import IotSaas.Realtime.Dumps
import IotSaas.Realtime.LatestCache
import IotSaas.Realtime.Lossless
import IotSaas.Realtime.Relay
import IotSaas.Rules.Activity
import IotSaas.Rules.Admission
import IotSaas.Rules.Cache
import IotSaas.Rules.Checkpoint
import IotSaas.Rules.Clear
import IotSaas.Rules.HealthWatch
import IotSaas.Rules.HotPath
import IotSaas.Rules.Narrowing
import IotSaas.Rules.PendingTimer
import IotSaas.Rules.RawEvaluator
import IotSaas.Rules.Rearm
import IotSaas.Rules.Repeat
import IotSaas.Rules.Replay
import IotSaas.Rules.ResetHistory
import IotSaas.Rules.Restore
import IotSaas.Rules.Schmitt
import IotSaas.Rules.Signals
import IotSaas.Rules.TreeValue
import IotSaas.Rules.TwoValued
import IotSaas.Schedule.NextRuns
import IotSaas.Schedule.Wording
import IotSaas.Templates.Change
import IotSaas.Templates.Draft
import IotSaas.Templates.InStep
import IotSaas.Templates.Links
import IotSaas.Templates.Readings
import IotSaas.Templates.Reconcile
import IotSaas.Templates.RoundTrip
import IotSaas.Tenants.Escalation
import IotSaas.Tenants.LastOwner
import IotSaas.Wiring.Checked
import IotSaas.Wiring.Draft
import IotSaas.Wiring.Drivers
import IotSaas.Wiring.Move
import IotSaas.Wiring.Numbers
import IotSaas.Wiring.ParamTexts
import IotSaas.Wiring.RoundTrip
import IotSaas.Worker.Channels
import IotSaas.Worker.ConfigPublish
import IotSaas.Worker.Delivery
import IotSaas.Worker.Dispatch
import IotSaas.Worker.DispatchFailures
import IotSaas.Worker.EdgeOrder
import IotSaas.Worker.Flapping
import IotSaas.Worker.HandleMessage
import IotSaas.Worker.Ingest
import IotSaas.Worker.LatchIsolation
import IotSaas.Worker.Latched
import IotSaas.Worker.LatchedRun
import IotSaas.Worker.OutOfBand
import IotSaas.Worker.ProfileEdit
import IotSaas.Worker.Restart
import IotSaas.Worker.RuleCacheLoop
import IotSaas.Worker.ScheduleLoop
import IotSaas.Worker.StreamWriter
import IotSaas.Worker.Tasks
import IotSaas.Worker.WriterRun
