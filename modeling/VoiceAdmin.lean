import VoiceAdmin.Main
import VoiceAdmin.Timeline.Step
import VoiceAdmin.Proofs.Recording
import VoiceAdmin.Proofs.Domain.Codec
import VoiceAdmin.Proofs.Domain.Equality
import VoiceAdmin.Proofs.Keyed
import VoiceAdmin.Proofs.Payload.RoundTrip
import VoiceAdmin.Proofs.Payload.Readings
import VoiceAdmin.Proofs.Frequency.Text
import VoiceAdmin.Proofs.Frequency.Editing
import VoiceAdmin.Proofs.Frequency.Typing
import VoiceAdmin.Proofs.Frequency.Erasing
import VoiceAdmin.Proofs.Number.Rounding
import VoiceAdmin.Proofs.Number.Packing
import VoiceAdmin.Proofs.Number.Arithmetic
import VoiceAdmin.Proofs.Frequency.Drafting
import VoiceAdmin.Proofs.Frequency.Storing
import VoiceAdmin.Proofs.Delivery.Lookup
import VoiceAdmin.Proofs.Delivery.Continuity
import VoiceAdmin.Proofs.Delivery.Account
import VoiceAdmin.Proofs.Delivery.Guard
import VoiceAdmin.Proofs.Service.Presence
import VoiceAdmin.Proofs.Service.TableLog
import VoiceAdmin.Proofs.Service.Pushes
import VoiceAdmin.Proofs.Service.Effects
import VoiceAdmin.Proofs.Service.Ledger
import VoiceAdmin.Proofs.Service.Parts
import VoiceAdmin.Proofs.Service.Order
import VoiceAdmin.Proofs.Service.Retry
import VoiceAdmin.Proofs.Service.Deliveries
import VoiceAdmin.Proofs.Alerts.Queue
import VoiceAdmin.Proofs.Alerts.History
import VoiceAdmin.Proofs.Alerts.Interleaving
import VoiceAdmin.Proofs.Alerts.Display
import VoiceAdmin.Proofs.Alerts.Sweeping
import VoiceAdmin.Proofs.Alerts.Wakeups
import VoiceAdmin.Proofs.Alerts.Center
import VoiceAdmin.Proofs.Alerts.Watch
import VoiceAdmin.Proofs.Sync.Held
import VoiceAdmin.Proofs.Sync.History
import VoiceAdmin.Proofs.Sync.Handling
import VoiceAdmin.Proofs.Sync.Loop
import VoiceAdmin.Proofs.Sync.Acceptance
import VoiceAdmin.Proofs.Sync.Chronicle
import VoiceAdmin.Proofs.Sync.Numbering
import VoiceAdmin.Proofs.Sync.Pulls
import VoiceAdmin.Proofs.Sync.Outages
import VoiceAdmin.Proofs.Sync.Mirror
import VoiceAdmin.Proofs.Sync.Versions
import VoiceAdmin.Proofs.Sync.Drained
import VoiceAdmin.Proofs.Request
import VoiceAdmin.Proofs.Timeline.Tasks
import VoiceAdmin.Proofs.Timeline.Release
import VoiceAdmin.Proofs.Timeline.Deeds
import VoiceAdmin.Proofs.Timeline.Frames
import VoiceAdmin.Proofs.Timeline.Turns
import VoiceAdmin.Proofs.Timeline.Calls
import VoiceAdmin.Proofs.Timeline.Stopping
import VoiceAdmin.Proofs.Timeline.Courses
import VoiceAdmin.Proofs.Timeline.Mounting
import VoiceAdmin.Proofs.Timeline.Events
import VoiceAdmin.Proofs.Timeline.Dispatch
import VoiceAdmin.Proofs.Timeline.Loads
import VoiceAdmin.Proofs.Timeline.Settling
import VoiceAdmin.Proofs.Timeline.Unmounting
import VoiceAdmin.Proofs.Timeline.Console
