import HiveSdk.Interaction.Observe
import HiveSdk.Errors.Lengths
import HiveSdk.Errors.Uploads
import HiveSdk.Connect.Login
import HiveSdk.Nodes.Session
import HiveSdk.Drive.Store
import HiveSdk.Drive.Values
import HiveSdk.Downloads.Complete
import HiveSdk.Downloads.Exact
import HiveSdk.Listing.Pages
import HiveSdk.Files.RoundTrip
import HiveSdk.Drive.Retries
import HiveSdk.Files.Folders
import HiveSdk.Files.Agreement
import HiveSdk.Connect.Blind
import HiveSdk.Connect.Explained
import HiveSdk.Drive.Walk
import HiveSdk.Interaction.Search
import HiveSdk.Nodes.Bootstrap
import HiveSdk.Answers.Body
import HiveSdk.Answers.Reading
import HiveSdk.Answers.Defined
import HiveSdk.Answers.Text
import HiveSdk.Connect.Code
import HiveSdk.Uri.Authority
import HiveSdk.Nodes.Urls
import HiveSdk.Files.Disk
import HiveSdk.Files.Destination
import HiveSdk.Interaction.Preserves
import HiveSdk.Interaction.Within
import HiveSdk.Names.Items
import HiveSdk.Names.Operations
import HiveSdk.Names.Limits
import HiveSdk.Uri.Path
import HiveSdk.Names.Apart
import HiveSdk.Tokens.View
import HiveSdk.Tokens.Refresh
import HiveSdk.Tokens.Items
import HiveSdk.Tokens.Session
import HiveSdk.Keystore.World
import HiveSdk.Keystore.RoundTrip
import HiveSdk.Keystore.Faults
import HiveSdk.Answers.Buffer
import HiveSdk.Files.Mkdirs
import HiveSdk.Errors.Strerror
import HiveSdk.Interaction.Concurrent
import HiveSdk.Drive.Writers
import HiveSdk.Drive.Shared
import HiveSdk.Interaction.Replay
import HiveSdk.Interaction.Attach
import HiveSdk.Uri.Form
import HiveSdk.Model.Server
import HiveSdk.Model.Redirect
import HiveSdk.Server.Request
import HiveSdk.Server.Net
import HiveSdk.Server.Response
import HiveSdk.Server.Streams
import HiveSdk.Server.Rounds
import HiveSdk.Server.Sessions
import HiveSdk.Server.Browser
import HiveSdk.Server.Redirect
import HiveSdk.Interaction.Growing
import HiveSdk.Ipfs.Network
import HiveSdk.Ipfs.Objects
import HiveSdk.Ipfs.Store
import HiveSdk.Ipfs.RoundTrip
import HiveSdk.Drive.Crashes
import HiveSdk.Drive.Readers
import HiveSdk.Tokens.Custody
import HiveSdk.Errors.Silent
import HiveSdk.Errors.Reported
