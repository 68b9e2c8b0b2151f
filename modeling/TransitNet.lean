import TransitNet.Soup
import TransitNet.Relay
import TransitNet.Search
import TransitNet.Words
import TransitNet.Strings
import TransitNet.Payload
import TransitNet.Codec
import TransitNet.Utf8
import TransitNet.Bytes
import TransitNet.Timetable
import TransitNet.Handler
import TransitNet.Journey
import TransitNet.Network
import TransitNet.Forwarding
import TransitNet.Protocol
import TransitNet.Routing
import TransitNet.Riding
import TransitNet.Leaving
import TransitNet.Loaders
import TransitNet.Refresh
import TransitNet.Spelling
import TransitNet.Clients
import TransitNet.Answers
import TransitNet.Python
import TransitNet.Twin
import TransitNet.Interchange
import TransitNet.PyNetwork
import TransitNet.Departures
import TransitNet.Lengths
import TransitNet.Loading
import TransitNet.Room
import TransitNet.Requests
import TransitNet.Browsers
import TransitNet.Bodies
import TransitNet.Strays
import TransitNet.Uptime
import TransitNet.Storing
import TransitNet.Fastest
import TransitNet.Waiting
import TransitNet.Ring
import TransitNet.Memory
import TransitNet.Questions
import TransitNet.Site
import TransitNet.Indices
import TransitNet.Grammar
import TransitNet.Scanf
import TransitNet.Connections
import TransitNet.Mirror
import TransitNet.Capacity
import TransitNet.Programs
import TransitNet.Mixed
import TransitNet.Interop
import TransitNet.Town
import TransitNet.Patience
import TransitNet.Closure
import TransitNet.Generator
import TransitNet.Rounding
import TransitNet.Buses
import TransitNet.Generated
import TransitNet.Localhost
import TransitNet.Substitution
import TransitNet.Scripts
import TransitNet.Startup
import TransitNet.Founded
import TransitNet.Page
