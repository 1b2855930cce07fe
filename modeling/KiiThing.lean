import KiiThing.Lib.Memory
import KiiThing.Lib.Search
import KiiThing.Lib.Decimal
import KiiThing.Lib.Loop
import KiiThing.Lib.System
import KiiThing.Lib.Http
import KiiThing.Lib.Pieces
import KiiThing.Lib.Delivery
import KiiThing.Lib.Reading
import KiiThing.Lib.Interaction
import KiiThing.Lib.Ownership
import KiiThing.Lib.Mqtt
import KiiThing.Lib.Json
import KiiThing.Core.Basic
import KiiThing.Core.Init
import KiiThing.Core.Builder
import KiiThing.Core.Request
import KiiThing.Core.Layout
import KiiThing.Core.Steady
import KiiThing.Core.ApiCall
import KiiThing.Core.ContentLength
import KiiThing.Core.Execute
import KiiThing.Core.Stream
import KiiThing.Core.Engine
import KiiThing.Core.Declared
import KiiThing.Core.Status
import KiiThing.Core.Fragmentation
import KiiThing.Core.Incremental
import KiiThing.Core.Headers
import KiiThing.Core.Preparation
import KiiThing.Core.Assembly
import KiiThing.Core.Credentials
import KiiThing.Core.Ready
import KiiThing.Core.Ending
import KiiThing.Core.Sending
import KiiThing.Core.History
import KiiThing.Core.Outcome
import KiiThing.Core.Connection
import KiiThing.Core.Authorization
import KiiThing.Core.OneShot
import KiiThing.Core.LengthText
import KiiThing.Core.Selection
import KiiThing.Core.Bounds
import KiiThing.Core.Locality
import KiiThing.Core.Enough
import KiiThing.Core.Completion
import KiiThing.Core.SizeCheck
import KiiThing.Core.Waiting
import KiiThing.Core.Order
import KiiThing.Core.Transaction
import KiiThing.Core.Reception
import KiiThing.Core.Dialogue
import KiiThing.Core.Arrival
import KiiThing.Sdk.Wrapper
import KiiThing.Sdk.Object
import KiiThing.Sdk.Response
import KiiThing.Sdk.Functions
import KiiThing.Sdk.Paths
import KiiThing.Sdk.Idle
import KiiThing.Sdk.Ranges
import KiiThing.Sdk.Uploading
import KiiThing.Sdk.PartialContent
import KiiThing.Sdk.Atomicity
import KiiThing.Mqtt.Basic
import KiiThing.Mqtt.Handshake
import KiiThing.Mqtt.Notification
import KiiThing.Mqtt.Framing
import KiiThing.Mqtt.Delivery
import KiiThing.Mqtt.Task
import KiiThing.Mqtt.KeepAlive
import KiiThing.Mqtt.Acknowledgement
import KiiThing.Mqtt.Packets
import KiiThing.Mqtt.RemainingLength
import KiiThing.Mqtt.Subscription
import KiiThing.Platform.SecureSocket
